import ProxyCensus.Hex
import ProxyCensus.Text.Printable
import ProxyCensus.Text.Surrogate

/-!
# Quoted text in messages

A text in a message stands in single quotes, or in double quotes when it holds a single quote and
no double one. Inside, the quote in use, the backslash and the characters that cannot be printed are
escaped; so is half of a surrogate pair. Byte strings follow the same rule with a mark in front.
-/

namespace ProxyCensus.Text

def quoteFor (s : List Char) : Char :=
  if s.contains '\'' && !s.contains '"' then '"' else '\''

def numericEscape (n : Nat) : List Char :=
  if n < 0x100 then '\\' :: 'x' :: Hex.ofNat 2 n
  else if n < 0x10000 then '\\' :: 'u' :: Hex.ofNat 4 n
  else '\\' :: 'U' :: Hex.ofNat 8 n

def quotedChar (quote c : Char) : List Char :=
  if c == quote || c == '\\' then ['\\', c]
  else if c == '\n' then ['\\', 'n']
  else if c == '\r' then ['\\', 'r']
  else if c == '\t' then ['\\', 't']
  else if isPrintable c then [c]
  else numericEscape ((half? c).getD c.toNat)

def quoted (s : String) : String :=
  let quote := quoteFor s.toList
  String.ofList (quote :: s.toList.flatMap (quotedChar quote) ++ [quote])

/-- One byte inside quotes: printable ASCII stands for itself. -/
def quotedByte (quote : Char) (b : UInt8) : List Char :=
  let c := Char.ofNat b.toNat
  if b.toNat < 128 then quotedChar quote c else '\\' :: 'x' :: Hex.byte b

def quotedBytes (bytes : List UInt8) : String :=
  let quote := quoteFor (bytes.map fun b => Char.ofNat b.toNat)
  String.ofList ('b' :: quote :: bytes.flatMap (quotedByte quote) ++ [quote])

end ProxyCensus.Text
