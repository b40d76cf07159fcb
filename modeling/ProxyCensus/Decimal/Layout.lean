import ProxyCensus.Decimal.Shortest

/-!
# Written decimals

How a double is written down once its digits are known: with the point in place, or with an
exponent when the number is very large or very small.
-/

namespace ProxyCensus.Decimal

/-- Where positional writing ends and how an exponent is written. -/
structure Layout where
  /-- The exponent of the leading digit of the smallest numbers that are written positionally. -/
  lowest : Int
  /-- The exponent of the leading digit of the largest numbers that are written positionally. -/
  highest : Int
  /-- The least number of digits of an exponent, which always has its sign. -/
  exponentDigits : Nat

def padLeft (width : Nat) (fill : Char) (s : List Char) : List Char :=
  List.replicate (width - s.length) fill ++ s

/-- The digits of a positive decimal `digits · 10 ^ exponent` with the point in place; a whole
number gets one zero after the point. -/
def positional (digits : List Char) (exponent : Int) : List Char :=
  let point := digits.length + exponent
  if point ≤ 0 then '0' :: '.' :: List.replicate (-point).toNat '0' ++ digits
  else if 0 ≤ exponent then digits ++ List.replicate exponent.toNat '0' ++ ['.', '0']
  else digits.take point.toNat ++ '.' :: digits.drop point.toNat

/-- The digits of a positive decimal with one digit before the point and an exponent. -/
def Layout.scientific (layout : Layout) (digits : List Char) (exponent : Int) : List Char :=
  let power := digits.length + exponent - 1
  let fraction := match digits with
    | first :: second :: rest => first :: '.' :: second :: rest
    | short => short
  fraction ++ 'e' :: (if power < 0 then '-' else '+') ::
    padLeft layout.exponentDigits '0' (Nat.toDigits 10 power.natAbs)

def Layout.positive (layout : Layout) (m : Nat) (q : Int) : List Char :=
  let (digits, exponent) := shortest m q
  let digits := Nat.toDigits 10 digits
  let power := digits.length + exponent - 1
  if layout.lowest ≤ power && power ≤ layout.highest then positional digits exponent
  else layout.scientific digits exponent

/-- The text of a double: the fewest digits that read back. -/
def Layout.text (layout : Layout) (x : Float) : String :=
  match Binary.ofFloat x with
  | .nan => "nan"
  | .infinite negative => if negative then "-inf" else "inf"
  | .finite negative m q =>
    let body := if m == 0 then ['0', '.', '0'] else layout.positive m q
    String.ofList (if negative then '-' :: body else body)

/-- The text of a double with a fixed number of places, at least one; the exact value is rounded, a
half going to the even neighbour, and zero keeps its sign. -/
def fixed (places : Nat) (x : Float) : String :=
  match Binary.ofFloat x with
  | .nan => "nan"
  | .infinite negative => if negative then "-inf" else "inf"
  | .finite negative m q =>
    let digits := padLeft (places + 1) '0' (Nat.toDigits 10 (roundShifted (m * tenTo places) 1 q))
    let whole := digits.length - places
    let body := digits.take whole ++ '.' :: digits.drop whole
    String.ofList (if negative then '-' :: body else body)

end ProxyCensus.Decimal
