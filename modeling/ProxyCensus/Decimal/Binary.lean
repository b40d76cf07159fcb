/-!
# Doubles as exact numbers

A double is a sign with a natural number times a power of two, an infinity, or no number. Reading a
quotient back is the other direction: the double nearest to it, a tie going to the even neighbour.
-/

namespace ProxyCensus.Decimal

/-- A power of two. -/
def twoTo (n : Nat) : Nat :=
  Nat.pow 2 n

def tenTo (n : Nat) : Nat :=
  Nat.pow 10 n

/-- What a double stands for: `mantissa · 2 ^ exponent` with a sign, an infinity, or no number. -/
inductive Binary where
  | finite (negative : Bool) (mantissa : Nat) (exponent : Int)
  | infinite (negative : Bool)
  | nan

def Binary.ofFloat (x : Float) : Binary :=
  let bits := x.toBits.toNat
  let negative : Bool := twoTo 63 ≤ bits
  let exponent : Nat := bits / twoTo 52 % twoTo 11
  let fraction := bits % twoTo 52
  if exponent == 2047 then
    if fraction == 0 then .infinite negative else .nan
  else if exponent == 0 then .finite negative fraction (-1074)
  else .finite negative (fraction + twoTo 52) ((exponent : Int) - 1075)

/-- Rounds `num / den` to a natural number, a half going to the even neighbour. -/
def roundHalfEven (num den : Nat) : Nat :=
  let quotient := num / den
  let rest := num % den
  if 2 * rest < den then quotient
  else if den < 2 * rest then quotient + 1
  else if quotient % 2 == 0 then quotient else quotient + 1

def roundShifted (num den : Nat) (shift : Int) : Nat :=
  if 0 ≤ shift then roundHalfEven (num * twoTo shift.toNat) den
  else roundHalfEven num (den * twoTo (-shift).toNat)

/-- The exponent of the leading bit of a positive quotient: `2 ^ e ≤ num / den < 2 ^ (e + 1)`. -/
def leadingBit (num den : Nat) : Int :=
  let guess : Int := num.log2 - den.log2
  let below := if 0 ≤ guess then num < den * twoTo guess.toNat else num * twoTo (-guess).toNat < den
  if below then guess - 1 else guess

/-- The double nearest to `num / den`, a tie going to the even neighbour; nothing when that lies
beyond the largest double. -/
def nearest? (negative : Bool) (num den : Nat) : Option Float :=
  let sign : Nat := if negative then twoTo 63 else 0
  if num == 0 then some (Float.ofBits sign.toUInt64)
  else
    let lowest := max (leadingBit num den - 52) (-1074)
    let bits := (lowest + 1074).toNat * twoTo 52 + roundShifted num den (-lowest)
    if bits < 2047 * twoTo 52 then some (Float.ofBits (sign + bits).toUInt64) else none

def ofInt? (n : Int) : Option Float :=
  nearest? (n < 0) n.natAbs 1

/-- The double nearest to the quotient of two integers, if there is one; the divisor is not zero. -/
def quotient? (a b : Int) : Option Float :=
  nearest? ((a < 0) != (b < 0) && a != 0) a.natAbs b.natAbs

def Binary.truncate? : Binary → Option Int
  | .finite negative mantissa exponent =>
    let size := if 0 ≤ exponent then mantissa * twoTo exponent.toNat
      else mantissa / twoTo (-exponent).toNat
    some (if negative then -size else size)
  | _ => none

def Binary.toRat? : Binary → Option Rat
  | .finite negative mantissa exponent =>
    let size := mkRat (mantissa * twoTo exponent.toNat) (twoTo (-exponent).toNat)
    some (if negative then -size else size)
  | _ => none

def truncate? (x : Float) : Option Int :=
  (Binary.ofFloat x).truncate?

def floor? (x : Float) : Option Int :=
  truncate? x.floor

/-- What is left of a finite double when as many whole steps as possible are taken off it toward
zero; it has the sign of the double and is exact. -/
def remainder (x step : Float) : Float :=
  match Binary.ofFloat x, Binary.ofFloat step with
  | .finite negative m p, .finite _ n q =>
    let unit := min p q
    let rest := m * twoTo (p - unit).toNat % (n * twoTo (q - unit).toNat)
    (nearest? negative (rest * twoTo unit.toNat) (twoTo (-unit).toNat)).getD 0
  | .finite .., .infinite _ => x
  | _, _ => x - x + step

/-- How many whole steps lead from zero to a double, rounded down; the step is not zero. The steps
are counted in doubles, so a large count is only near to the true one. -/
def wholeSteps (x step : Float) : Float :=
  let rest := remainder x step
  let count := (x - rest) / step
  let count := if rest != 0 && decide (step < 0) != decide (rest < 0) then count - 1 else count
  if count == 0 then 0
  else if 0.5 < count - count.floor then count.floor + 1
  else count.floor

def isWhole (x : Float) : Bool :=
  match Binary.ofFloat x with
  | .finite _ mantissa exponent =>
    0 ≤ exponent || mantissa % twoTo (-exponent).toNat == 0
  | _ => false

end ProxyCensus.Decimal
