import ProxyCensus.Decimal.Reading
import ProxyCensus.Text.Quoted

/-!
# Integers in texts

Two spellings of an integer are accepted, both with white space around them and an optional sign. The
plain one has decimal digits of any script with single underscores between them. The strict one is
written in ASCII, may start with zeros and may end in a point and zeros. Texts with more digits than
the limit are not read, whatever they spell.
-/

namespace ProxyCensus.Text

open Decimal (splitSign natOfDigits isDigit isGrouped)

inductive IntegerFault where
  /-- It spells none. -/
  | shape
  /-- It has more digits than the limit. -/
  | tooLong (digits : Nat)
  deriving DecidableEq

/-- How many digits an integer may have. -/
def digitLimit : Nat := 4300

/-- The words for an integer that has more digits than the limit. -/
def tooLongMessage (digits : Nat) : String :=
  s!"Exceeds the limit ({digitLimit} digits) for integer string conversion: value has {digits} " ++
    "digits; use sys.set_int_max_str_digits() to increase the limit"

/-- The words for a fault of a text; of a text that spells no integer they show only the start. -/
def IntegerFault.message (s : String) : IntegerFault → String
  | .shape =>
    "invalid literal for int() with base 10: " ++ String.ofList ((quoted s).toList.take 200)
  | .tooLong digits => tooLongMessage digits

/-- The integer with the given sign and digits. -/
def signed (negative : Bool) (n : Nat) : Int :=
  if negative then -n else n

/-- The integer that a text plainly spells. The underscores of the digits are looked at first, then
the number of digits, and then what follows them. -/
def integer (s : String) : Except IntegerFault Int :=
  let (negative, body) := splitSign ((trimBy isWhiteSpace s.toList).map Decimal.plainDigit)
  let (front, rest) := body.span fun c => isDigit c || c == '_'
  let digits := front.filter isDigit
  if !isGrouped front then .error .shape
  else if digitLimit < digits.length then .error (.tooLong digits.length)
  else if digits.isEmpty || !rest.isEmpty then .error .shape
  else .ok (signed negative (natOfDigits digits))

/-- The integer that a text plainly spells, if there is one. -/
def int? (s : String) : Option Int :=
  (integer s).toOption

/-- The integer that digits without zeros in front spell, with a minus sign if it is negative. The
sign counts as a digit. -/
def bareInteger (s : List Char) : Except IntegerFault Int :=
  let (negative, body) := match s with
    | '-' :: body => (true, body)
    | _ => (false, s)
  let (digits, rest) := body.span isDigit
  match digits with
  | [] | '0' :: _ :: _ => .error .shape
  | _ =>
    let length := s.length - rest.length
    if digitLimit < length then .error (.tooLong length)
    else if !rest.isEmpty then .error .shape
    else .ok (signed negative (natOfDigits digits))

/-- What follows the zeros at the front of a number, given the last of them. Underscores count as
zeros. A text of zeros alone keeps its last character, and so does one with a point after them. -/
def afterZeros (last : Char) : List Char → Option (List Char)
  | [] => some [last]
  | c :: rest =>
    if c == '0' || c == '_' then afterZeros c rest
    else if c == '.' then some (last :: c :: rest)
    else if isDigit c || c == '-' then some (c :: rest)
    else none

/-- Drops the zeros at the front of a number; nothing for a text that does not start like one. -/
def dropZeros : List Char → Option (List Char)
  | [] => none
  | c :: rest =>
    if c == '0' then afterZeros c rest
    else if isDigit c || c == '-' then some (c :: rest)
    else none

/-- Drops a point with nothing but zeros after it, at least one. -/
def dropZeroFraction (s : List Char) : List Char :=
  let (whole, point) := s.span (· != '.')
  match point with
  | _ :: c :: rest => if (c :: rest).all (· == '0') then whole else s
  | _ => s

/-- Drops the underscores if each stands alone between two other characters. -/
def dropUnderscores (s : List Char) : List Char :=
  if isGrouped s then s.filter (· != '_') else s

/-- The number that is left of a text without its plus sign, the zeros in front and behind, and the
underscores. -/
def bared? (s : List Char) : Option (List Char) :=
  let unsigned := match s with
    | '+' :: rest => if rest.head? == some '-' then none else some rest
    | _ => some s
  (unsigned.bind dropZeros).map fun s => dropUnderscores (dropZeroFraction s)

def strictInteger (s : String) : Except IntegerFault Int :=
  let body := trimBy isWhiteSpace s.toList
  match bareInteger body with
  | .error .shape =>
    match bared? body with
    | some bared => bareInteger bared
    | none => .error .shape
  | r => r

end ProxyCensus.Text
