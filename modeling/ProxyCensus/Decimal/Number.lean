import ProxyCensus.Decimal.Layout

/-!
# Numbers of two kinds

Readings of clocks and what is computed from them: an integer as long as only integers went in, and
a double otherwise.
-/

namespace ProxyCensus.Decimal

inductive Number where
  | whole (n : Int)
  | real (x : Float)

namespace Number

/-- The double nearest to a number; an integer beyond the largest double has none. -/
def toFloat? : Number → Option Float
  | .whole n => ofInt? n
  | .real x => some x

/-- An operation on two numbers, exact on integers. An integer meets a double as the double nearest
to it, if there is one. -/
def combine? (onInt : Int → Int → Int) (onFloat : Float → Float → Float) :
    Number → Number → Option Number
  | .whole a, .whole b => some (.whole (onInt a b))
  | a, b => do return .real (onFloat (← a.toFloat?) (← b.toFloat?))

def add? : Number → Number → Option Number :=
  combine? (· + ·) (· + ·)

def sub? : Number → Number → Option Number :=
  combine? (· - ·) (· - ·)

def mul? : Number → Number → Option Number :=
  combine? (· * ·) (· * ·)

def sum? (numbers : List Number) : Option Number :=
  numbers.foldlM add? (.whole 0)

/-- The quotient, which is always a double, if there is one; the divisor is not zero. -/
def dividedBy? (a : Number) (n : Nat) : Option Float :=
  match a with
  | .whole a => quotient? a n
  | .real x => some (x / Float.ofNat n)

/-- Whether an integer lies below a double; the comparison is exact. -/
def wholeLess (n : Int) (x : Float) : Bool :=
  match Binary.ofFloat x with
  | .nan => false
  | .infinite negative => !negative
  | b => (n : Rat) < b.toRat?.getD 0

/-- Whether a double lies below an integer; the comparison is exact. -/
def realLess (x : Float) (n : Int) : Bool :=
  match Binary.ofFloat x with
  | .nan => false
  | .infinite negative => negative
  | b => b.toRat?.getD 0 < (n : Rat)

def less : Number → Number → Bool
  | .whole a, .whole b => a < b
  | .real a, .real b => a < b
  | .whole a, .real b => wholeLess a b
  | .real a, .whole b => realLess a b

/-- Whether two numbers are equal; the comparison is exact. -/
def equal : Number → Number → Bool
  | .whole a, .whole b => a == b
  | .real a, .real b => a == b
  | .whole a, .real b => (Binary.ofFloat b).toRat? == some (a : Rat)
  | .real a, .whole b => (Binary.ofFloat a).toRat? == some (b : Rat)

end Number

end ProxyCensus.Decimal
