import ProxyCensus.Decimal.Binary

/-!
# Shortest decimals

The decimal with the fewest digits that reads back as a given double, and of those the nearest to
it. All comparisons are exact, on natural numbers.
-/

namespace ProxyCensus.Decimal

def digitCount (n : Nat) : Nat :=
  (Nat.toDigits 10 n).length

/-- The place of the leading digit of a positive quotient:
`10 ^ (k - 1) ≤ num / den < 10 ^ k`. -/
def leadingPlace (num den : Nat) : Int :=
  if den ≤ num then digitCount (num / den)
  else
    let d := digitCount (den / num)
    if den ≤ num * tenTo (d - 1) then 2 - d else 1 - d

/-- The real numbers that read back as one double: from `low / unit` to `high / unit`, the ends
included when `closed` holds, around `mid / unit`. -/
structure Basin where
  low : Nat
  mid : Nat
  high : Nat
  unit : Nat
  closed : Bool

/-- The basin of `m · 2 ^ q`. Below a power of two the next double is only half as far away. -/
def Basin.of (m : Nat) (q : Int) : Basin :=
  let scale := twoTo q.toNat
  let unit := 4 * twoTo (-q).toNat
  let below := if m == twoTo 52 && -1074 < q then 1 else 2
  { low := (4 * m - below) * scale
    mid := 4 * m * scale
    high := (4 * m + 2) * scale
    unit
    closed := m % 2 == 0 }

/-- Whether `c · 10 ^ g` lies in the basin. -/
def Basin.has (b : Basin) (c : Nat) (g : Int) : Bool :=
  let point := c * tenTo g.toNat * b.unit
  let scale := tenTo (-g).toNat
  if b.closed then b.low * scale ≤ point && point ≤ b.high * scale
  else b.low * scale < point && point < b.high * scale

/-- The nearer of the two neighbours of the middle on the grid of multiples of `10 ^ g` that lies
in the basin, if one does. -/
def Basin.pick? (b : Basin) (g : Int) : Option Nat :=
  let num := b.mid * tenTo (-g).toNat
  let den := b.unit * tenTo g.toNat
  let lower := num / den
  let upper := lower + 1
  match b.has lower g, b.has upper g with
  | true, true => some (roundHalfEven num den)
  | true, false => some lower
  | false, true => some upper
  | false, false => none

def cutZeros : Nat → Nat → Int → Nat × Int
  | 0, n, e => (n, e)
  | fuel + 1, n, e => if n != 0 && n % 10 == 0 then cutZeros fuel (n / 10) (e + 1) else (n, e)

/-- The digits and the exponent of the shortest decimal `digits · 10 ^ exponent` for the positive
double `m · 2 ^ q`. Grids are tried from the coarsest on; seventeen digits always suffice. -/
def shortest (m : Nat) (q : Int) : Nat × Int :=
  let b := Basin.of m q
  let place := leadingPlace b.mid b.unit
  let grids := (List.range 17).map fun i : Nat => place - 1 - (i : Int)
  match grids.findSome? fun g => (b.pick? g).map (·, g) with
  | some (digits, g) => cutZeros 20 digits g
  | none => (b.mid / b.unit, 0)

end ProxyCensus.Decimal
