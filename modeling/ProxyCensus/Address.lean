import ProxyCensus.Failure
import ProxyCensus.Hex
import ProxyCensus.Text.LetterCase

/-!
# Addresses

The twenty bytes that name a contract, as text. Every accepted spelling has one normal form: a
marker and forty digits in lower case. Words of thirty-two bytes hold an address in their low part.
-/

namespace ProxyCensus.Address

/-- Whether a text is an address: forty digits, with or without a marker in either case. -/
def isAddress (s : List Char) : Bool :=
  (Hex.dropMarker s).length == 40 && (Hex.dropMarker s).all Hex.isDigit

/-- The normal form of an address, nothing for any other text. -/
def normalize? (s : String) : Option String :=
  if isAddress s.toList then
    some (String.ofList ('0' :: 'x' :: (Hex.dropMarker s.toList).map Char.toLower))
  else none

def ofValue? : Json → Option String
  | .str s => normalize? s
  | _ => none

/-- The address that belongs to no contract. -/
def zero : String :=
  "0x" ++ String.ofList (List.replicate 40 '0')

def ofBytes (bytes : List UInt8) : String :=
  String.ofList ('0' :: 'x' :: Hex.encode bytes)

/-- The address in the low part of a word, whatever its high part; nothing for a text that is too
short or not hexadecimal, and for the zero address. -/
def ofWord? (word : String) : Option String :=
  let digits := Hex.clean word
  if word.isEmpty || word == "0x" || digits.length < 40 then none
  else
    let low := (digits.drop (digits.length - 40)).map Char.toLower
    let address := String.ofList ('0' :: 'x' :: low)
    if address == zero || !low.all Hex.isDigit then none else some address

/-- The word that holds an address in its low part, as the key of a storage slot. -/
def slot (address : String) : String :=
  let digits := Text.lowerFrom [] (Hex.clean address)
  String.ofList ('0' :: 'x' :: List.replicate (64 - digits.length) '0' ++ digits)

end ProxyCensus.Address
