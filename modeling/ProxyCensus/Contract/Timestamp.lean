import ProxyCensus.Decimal.Layout
import ProxyCensus.Decimal.Reading

/-!
# Points in time

A day and a time of day, with microseconds and an optional distance from universal time. Texts are
read as in RFC 3339, where the seconds, their fraction and the distance may be left out, and a day
alone means its first moment; they are written with a fraction only when it is not zero.
-/

namespace ProxyCensus

/-- A point in time. The year zero is the one before the year one. -/
structure Timestamp where
  year : Nat
  month : Nat
  day : Nat
  hour : Nat := 0
  minute : Nat := 0
  second : Nat := 0
  microsecond : Nat := 0
  /-- Minutes ahead of universal time, where it is known. -/
  offset : Option Int := none
  deriving DecidableEq, Repr

namespace Timestamp

def padded (width n : Nat) : String :=
  String.ofList (Decimal.padLeft width '0' (Nat.toDigits 10 n))

def offsetText (minutes : Int) : String :=
  let sign := if minutes < 0 then "-" else "+"
  s!"{sign}{padded 2 (minutes.natAbs / 60)}:{padded 2 (minutes.natAbs % 60)}"

def text (t : Timestamp) : String :=
  let day := s!"{padded 4 t.year}-{padded 2 t.month}-{padded 2 t.day}"
  let time := s!"{padded 2 t.hour}:{padded 2 t.minute}:{padded 2 t.second}"
  let fraction := if t.microsecond == 0 then "" else "." ++ padded 6 t.microsecond
  day ++ "T" ++ time ++ fraction ++ (t.offset.map offsetText).getD ""

def daysIn (year month : Nat) : Nat :=
  if month == 2 then
    if year % 4 == 0 && (year % 100 != 0 || year % 400 == 0) then 29 else 28
  else if [4, 6, 9, 11].contains month then 30
  else 31

/-- The number that exactly `width` digits at the front of a text spell. -/
def number? (width : Nat) (s : List Char) : Option (Nat × List Char) :=
  let front := s.take width
  if front.length == width && front.all Decimal.isDigit then
    some (Decimal.natOfDigits front, s.drop width)
  else none

def after? (mark : Char) : List Char → Option (List Char)
  | c :: rest => if c == mark then some rest else none
  | [] => none

def readOffset? : List Char → Option (Option Int)
  | [] => some none
  | [c] => if c == 'Z' || c == 'z' then some (some 0) else none
  | sign :: rest => do
    let factor : Int ←
      if sign == '+' then some 1 else if sign == '-' || sign == '−' then some (-1) else none
    let (hours, rest) ← number? 2 rest
    let (minutes, rest) ← number? 2 ((after? ':' rest).getD rest)
    if rest.isEmpty && hours < 24 && minutes < 60 then
      some (some (factor * (60 * hours + minutes)))
    else none

/-- The microseconds of a fraction, after a point or a comma; digits beyond the sixth are dropped. -/
def readFraction? (s : List Char) : Option (Nat × List Char) :=
  match (after? '.' s <|> after? ',' s) with
  | some rest =>
    let (digits, rest) := rest.span Decimal.isDigit
    if digits.isEmpty then none
    else
      let six := digits.take 6
      some (Decimal.natOfDigits six * Decimal.tenTo (6 - six.length), rest)
  | none => some (0, s)

/-- The seconds of a time of day and their microseconds, if there are any. -/
def readSeconds? (s : List Char) : Option ((Nat × Nat) × List Char) :=
  match after? ':' s with
  | some rest => do
    let (second, rest) ← number? 2 rest
    let (microsecond, rest) ← readFraction? rest
    return ((second, microsecond), rest)
  | none => some ((0, 0), s)

def readTime? (day : Timestamp) (s : List Char) : Option Timestamp := do
  let (hour, rest) ← number? 2 s
  let (minute, rest) ← number? 2 (← after? ':' rest)
  let ((second, microsecond), rest) ← readSeconds? rest
  let offset ← readOffset? rest
  if hour < 24 && minute < 60 && second < 60 then
    some { day with hour, minute, second, microsecond, offset }
  else none

def ofText? (s : String) : Option Timestamp := do
  let (year, rest) ← number? 4 s.toList
  let (month, rest) ← number? 2 (← after? '-' rest)
  let (day, rest) ← number? 2 (← after? '-' rest)
  if 1 ≤ month && month ≤ 12 && 1 ≤ day && day ≤ daysIn year month then
    let first : Timestamp := { year, month, day }
    match rest with
    | [] => some first
    | c :: rest =>
      if c == 'T' || c == 't' || c == ' ' || c == '_' then readTime? first rest else none
  else none

end Timestamp

end ProxyCensus
