import ProxyCensus.Failure

/-!
# Values that stand for integers

Many parts of the program take any value that can be turned into an integer: an integer, a truth
value, a double without its fraction, or a text that spells an integer.
-/

namespace ProxyCensus

def wholePart (x : Float) : Except Failure Int :=
  match Decimal.Binary.ofFloat x with
  | .nan => .error (.badValue "cannot convert float NaN to integer")
  | .infinite _ => .error (.overflow "cannot convert float infinity to integer")
  | b => .ok (b.truncate?.getD 0)

namespace Json

/-- The integer that a value stands for. Doubles are cut toward zero. -/
def integer : Json → Except Failure Int
  | .int n => .ok n
  | .bool b => .ok (if b then 1 else 0)
  | .float x => wholePart x
  | .str s => (Text.integer s).mapError fun fault => .badValue (fault.message s)
  | _ => .error .wrongKind

end Json

end ProxyCensus
