import ProxyCensus.Decimal.Shortest
import ProxyCensus.Text.Blank
import ProxyCensus.Text.DecimalDigit

/-!
# Read decimals

The double nearest to a decimal, and the decimals that a text may spell, plainly or strictly.
-/

namespace ProxyCensus.Decimal

/-- The double nearest to `digits · 10 ^ exponent`; nothing when that lies beyond the largest
double. Decimals far outside the range of doubles are settled by their leading place alone. -/
def ofDecimal? (negative : Bool) (digits : Nat) (exponent : Int) : Option Float :=
  let place := digitCount digits + exponent
  if digits == 0 || place < -330 then nearest? negative 0 1
  else if 320 < place then none
  else nearest? negative (digits * tenTo exponent.toNat) (tenTo (-exponent).toNat)

/-- An infinity. -/
def infinity (negative : Bool) : Float :=
  Float.ofBits (if negative then 0xfff0000000000000 else 0x7ff0000000000000)

def notANumber : Float :=
  Float.ofBits 0x7ff8000000000000

/-- The double nearest to `digits · 10 ^ exponent`, an infinity beyond the largest double. -/
def ofDecimal (negative : Bool) (digits : Nat) (exponent : Int) : Float :=
  (ofDecimal? negative digits exponent).getD (infinity negative)

def natOfDigits (s : List Char) : Nat :=
  s.foldl (fun n c => 10 * n + (c.toNat - 48)) 0

/-- Whether a character is one of the ten digits of ASCII. -/
def isDigit (c : Char) : Bool :=
  '0' ≤ c && c ≤ '9'

/-- Digits in which single underscores may stand between two digits, without the underscores. -/
def groupedDigits? : List Char → Option (List Char)
  | [] => some []
  | [c] => if isDigit c then some [c] else none
  | c :: '_' :: d :: rest =>
    if isDigit c && isDigit d then (groupedDigits? (d :: rest)).map (c :: ·) else none
  | c :: rest => if isDigit c then (groupedDigits? rest).map (c :: ·) else none

def splitSign : List Char → Bool × List Char
  | '-' :: rest => (true, rest)
  | '+' :: rest => (false, rest)
  | s => (false, s)

/-- The exponent that a text spells after its mark: an optional sign and at least one digit. -/
def exponent? (s : List Char) : Option Int :=
  let (negative, digits) := splitSign s
  match groupedDigits? digits with
  | some (c :: r) =>
    let n : Int := natOfDigits (c :: r)
    some (if negative then -n else n)
  | _ => none

/-- The double that an unsigned text spells: digits with an optional point and an optional
exponent, or the words for infinity and for no number. -/
def unsigned? (negative : Bool) (s : List Char) : Option Float :=
  let word := String.ofList (s.map Char.toLower)
  if word == "inf" || word == "infinity" then some (infinity negative)
  else if word == "nan" then some notANumber
  else
    let (body, mark) := s.span fun c => c != 'e' && c != 'E'
    let (whole, point) := body.span (· != '.')
    let fraction := point.drop 1
    match groupedDigits? whole, groupedDigits? fraction, exponent? (mark.drop 1) with
    | some whole, some fraction, power =>
      if whole.isEmpty && fraction.isEmpty then none
      else match mark, power with
        | [], _ => some (ofDecimal negative (natOfDigits (whole ++ fraction)) (-fraction.length))
        | _ :: _, some power =>
          some (ofDecimal negative (natOfDigits (whole ++ fraction)) (power - fraction.length))
        | _ :: _, none => none
    | _, _, _ => none

/-- A decimal digit of any script becomes the digit of ASCII with its value. -/
def plainDigit (c : Char) : Char :=
  match Text.digitValue? c with
  | some d => Char.ofNat (48 + d)
  | none => c

/-- The double that a text spells, with white space around it and an optional sign. -/
def ofText? (s : String) : Option Float :=
  let (negative, body) := splitSign ((Text.trimBy Text.isWhiteSpace s.toList).map plainDigit)
  unsigned? negative body

/-- Whether every underscore of a text stands alone between two other characters. -/
def isGrouped (s : List Char) : Bool :=
  s.head? != some '_' && s.getLast? != some '_' &&
    !(s.zip (s.drop 1)).contains ('_', '_')

/-- The double that a text of ASCII strictly spells: an optional sign and the number, either with
white space around it or with underscores inside it. -/
def strictOfText? (s : String) : Option Float :=
  let spelled := s.toList
  let body :=
    if !spelled.contains '_' then some (Text.trimBy Text.isWhiteSpace spelled)
    else if isGrouped spelled then some (spelled.filter (· != '_'))
    else none
  body.bind fun body => let (negative, digits) := splitSign body; unsigned? negative digits

end ProxyCensus.Decimal
