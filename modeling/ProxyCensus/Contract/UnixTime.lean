import ProxyCensus.Contract.Timestamp

/-!
# Unix time

Points in time given as a number: seconds since the start of 1970, or milliseconds when the number is
so large that seconds would lead far into the future. The calendar goes from the year 0 to the year
9999, and the distance from universal time is zero.
-/

namespace ProxyCensus.Timestamp

def secondsPerDay : Int := 86400

/-- The largest number of seconds; a number beyond it counts milliseconds. -/
def secondLimit : Int := 20000000000

def firstSecond : Int := -62167219200

def lastSecond : Int := 253402300799

/-- The day with the given number, counted from the start of 1970. Years are counted from March on,
so that the leap day comes last, in eras of 400 years, which have 146097 days each. -/
def ofDays (days : Int) : Timestamp :=
  let shifted := days + 719468
  let era := shifted.fdiv 146097
  let dayOfEra := (shifted.fmod 146097).toNat
  let yearOfEra := (dayOfEra - dayOfEra / 1460 + dayOfEra / 36524 - dayOfEra / 146096) / 365
  let dayOfYear := dayOfEra - (365 * yearOfEra + yearOfEra / 4 - yearOfEra / 100)
  let fromMarch := (5 * dayOfYear + 2) / 153
  let month := if fromMarch < 10 then fromMarch + 3 else fromMarch - 9
  let year := 400 * era + yearOfEra + (if month ≤ 2 then 1 else 0)
  { year := year.toNat, month, day := dayOfYear - (153 * fromMarch + 2) / 5 + 1 }

/-- The point in time that lies so many seconds and microseconds after the start of 1970. -/
def ofSeconds? (seconds : Int) (microseconds : Nat) : Option Timestamp :=
  let seconds := seconds + microseconds / 1000000
  if firstSecond ≤ seconds ∧ seconds ≤ lastSecond then
    let second := (seconds.fmod secondsPerDay).toNat
    some { ofDays (seconds.fdiv secondsPerDay) with
           hour := second / 3600
           minute := second / 60 % 60
           second := second % 60
           microsecond := microseconds % 1000000
           offset := some 0 }
  else none

/-- The point in time that a number of seconds or milliseconds gives, some microseconds later. -/
def ofUnix? (n : Int) (microseconds : Nat) : Option Timestamp :=
  if n.natAbs ≤ secondLimit.natAbs then ofSeconds? n microseconds
  else ofSeconds? (n.fdiv 1000) (microseconds + (n.fmod 1000).toNat * 1000)

def millionths (x : Float) : Nat :=
  ((Decimal.truncate? (x * 1000000).round).getD 0).toNat

/-- The point in time that a double gives. The fraction is taken without its sign, and counts
millionths whatever the unit of the number is. -/
def ofUnixDouble? (x : Float) : Option Timestamp :=
  (Decimal.floor? x).bind fun n => ofUnix? n (millionths (x.abs - x.abs.floor))

/-- The point in time that a double in a text gives. The number is brought to seconds first, and its
fraction leads forward. -/
def ofSpelledDouble? (x : Float) : Option Timestamp :=
  let seconds := if 20000000000 < x.abs then x / 1000 else x
  (Decimal.floor? seconds).bind fun n => ofUnix? n (millionths (seconds - seconds.floor))

def readExponent? : List Char → Option Int
  | [] => some 0
  | mark :: rest =>
    let (negative, digits) := Decimal.splitSign rest
    if (mark == 'e' || mark == 'E') && !digits.isEmpty && digits.all Decimal.isDigit then
      let n : Int := Decimal.natOfDigits digits
      some (if negative then -n else n)
    else none

/-- The double that a text with a point spells, given the digits in front of the point and what
follows it. -/
def spelledDouble? (negative : Bool) (whole rest : List Char) : Option Float :=
  let (fraction, rest) := rest.span Decimal.isDigit
  (readExponent? rest).map fun exponent =>
    Decimal.ofDecimal negative (Decimal.natOfDigits (whole ++ fraction)) (exponent - fraction.length)

/-- The point in time that the number in a text gives. Before a point the number has at most 64
bits. -/
def ofUnixText? (s : String) : Option Timestamp :=
  let (negative, body) := Decimal.splitSign s.toList
  let (digits, rest) := body.span Decimal.isDigit
  let n : Int := Decimal.natOfDigits digits
  if digits.isEmpty || 0x8000000000000000 ≤ n then none
  else match rest with
    | [] => ofUnix? (if negative then -n else n) 0
    | '.' :: rest => (spelledDouble? negative digits rest).bind ofSpelledDouble?
    | _ => none

end ProxyCensus.Timestamp
