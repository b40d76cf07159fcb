import ProxyCensus.Decimal.Layout
import ProxyCensus.Decimal.Reading

/-!
# Pacing

How long to wait before a request is sent. The rules hold for any kind of seconds: doubles when the
program runs, exact fractions when its laws are stated.
-/

namespace ProxyCensus

/-- A kind of numbers in which time is measured. -/
class Seconds (α : Type) extends Add α, Sub α, Mul α where
  less : α → α → Bool
  hundredths : Nat → α
  /-- A whole number of seconds, unless it is too large for this kind of numbers. -/
  whole? : Nat → Option α
  /-- The text of a span of time, with two places. -/
  text : α → String

instance : Seconds Float where
  less a b := decide (a < b)
  hundredths n := Decimal.ofDecimal false n (-2)
  whole? n := Decimal.ofInt? n
  text := Decimal.fixed 2

instance : Seconds Rat where
  less a b := decide (a < b)
  hundredths n := mkRat n 100
  whole? n := some n
  text a :=
    let n := Decimal.roundHalfEven (a.num.natAbs * 100) a.den
    let digits := Decimal.padLeft 3 '0' (Nat.toDigits 10 n)
    let whole := digits.length - 2
    let body := digits.take whole ++ '.' :: digits.drop whole
    String.ofList (if a < 0 then '-' :: body else body)

namespace Pacing

variable {α : Type} [Seconds α]

open Seconds

/-- How long to wait so that requests are `interval` apart, if any wait is needed. -/
def wait? (interval elapsed : α) : Option α :=
  if less elapsed interval then some (interval - elapsed) else none

/-- The interval after a node has asked to slow down: half as much again as before, or as a
twentieth of a second, but two seconds at most. -/
def slowed (interval : α) : α :=
  let base := if less interval (hundredths 5) then hundredths 5 else interval
  let longer := base * hundredths 150
  if less (hundredths 200) longer then hundredths 200 else longer

/-- The pause after round `attempt`, counted from one: it doubles every time, and a random part is
added. There is none when the doubled part is too large. -/
def pause? (attempt : Nat) (jitter : α) : Option α :=
  (whole? (Decimal.twoTo (attempt - 1))).map (· + jitter)

end Pacing

end ProxyCensus
