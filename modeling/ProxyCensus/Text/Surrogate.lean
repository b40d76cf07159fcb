/-!
# Halves of surrogate pairs

Some texts hold one half of a surrogate pair without the other, which is no character. In a text such
a half is kept as the character of the same code in the last private plane, so that every half keeps
its place and its value.
-/

namespace ProxyCensus.Text

/-- How far the characters that stand for halves lie above the halves. -/
def halfOffset : Nat := 0x100000

def isHigh (n : Nat) : Bool := 0xd800 ≤ n && n < 0xdc00

def isLow (n : Nat) : Bool := 0xdc00 ≤ n && n < 0xe000

def isHalf (n : Nat) : Bool := isHigh n || isLow n

/-- The character that stands for half of a pair. -/
def ofHalf (n : Nat) : Char :=
  Char.ofNat (halfOffset + n)

/-- The half that a character stands for. -/
def half? (c : Char) : Option Nat :=
  if halfOffset ≤ c.toNat && isHalf (c.toNat - halfOffset) then some (c.toNat - halfOffset) else none

def hasHalf (s : String) : Bool :=
  s.toList.any fun c => (half? c).isSome

end ProxyCensus.Text
