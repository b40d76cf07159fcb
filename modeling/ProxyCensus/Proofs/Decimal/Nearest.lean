import Mathlib.Algebra.Ring.Nat
import Mathlib.Tactic.ByContra
import ProxyCensus.Decimal.Number

/-!
# The double nearest to a quotient

Which quotients have a double next to them. Main statements: every quotient below `2 ^ 255` has one,
and a power of two has one exactly below `2 ^ 1024`.
-/

namespace ProxyCensus.Decimal

theorem twoTo_eq (n : Nat) : twoTo n = 2 ^ n := rfl

@[simp] theorem roundHalfEven_one (n : Nat) : roundHalfEven n 1 = n := by
  simp [roundHalfEven, Nat.mod_one]

theorem roundHalfEven_mul_left {a b : Nat} (hb : 0 < b) : roundHalfEven (a * b) b = a := by
  simp [roundHalfEven, Nat.mul_div_cancel a hb, hb]

theorem roundHalfEven_le {num den n : Nat} (h : num < den * n) : roundHalfEven num den ≤ n := by
  have hdiv : num / den < n := Nat.div_lt_of_lt_mul h
  unfold roundHalfEven
  dsimp only
  split
  · omega
  · split
    · omega
    · split <;> omega

/-- A quotient reaches a power of two, whose exponent may be negative. -/
def Reaches (num den : Nat) (e : Int) : Prop :=
  den * 2 ^ e.toNat ≤ num * 2 ^ (-e).toNat

theorem mul_two_pow_lt {a b i j k m : Nat} (h : a * 2 ^ i < b * 2 ^ j) (hk : j + k ≤ i + m) :
    a * 2 ^ k < b * 2 ^ m := by
  have h₁ : a * 2 ^ (i + k) < b * 2 ^ (j + k) := by
    rw [Nat.pow_add, Nat.pow_add, ← Nat.mul_assoc, ← Nat.mul_assoc]
    exact Nat.mul_lt_mul_of_pos_right h (Nat.pow_pos (by decide))
  have h₂ : b * 2 ^ (j + k) ≤ b * 2 ^ (i + m) :=
    Nat.mul_le_mul_left b (Nat.pow_le_pow_right (by decide) hk)
  have h₃ : 2 ^ i * (a * 2 ^ k) < 2 ^ i * (b * 2 ^ m) := by
    calc 2 ^ i * (a * 2 ^ k) = a * 2 ^ (i + k) := by
          rw [Nat.pow_add, Nat.mul_left_comm]
      _ < b * 2 ^ (i + m) := Nat.lt_of_lt_of_le h₁ h₂
      _ = 2 ^ i * (b * 2 ^ m) := by rw [Nat.pow_add, Nat.mul_left_comm]
  exact Nat.lt_of_mul_lt_mul_left h₃

/-- Between the powers of two around two numbers lies the one that their quotient reaches last. -/
theorem reaches_of_bounds {num den a b : Nat} (ha : 2 ^ a ≤ num) (ha' : num < 2 ^ (a + 1))
    (hb : 2 ^ b ≤ den) (hb' : den < 2 ^ (b + 1)) :
    Reaches num den ((a : Int) - b - 1) ∧ ¬ Reaches num den ((a : Int) - b + 1) := by
  constructor
  · have h₁ : den * 2 ^ ((a : Int) - b - 1).toNat ≤
        2 ^ (b + 1) * 2 ^ ((a : Int) - b - 1).toNat := Nat.mul_le_mul_right _ (Nat.le_of_lt hb')
    have h₂ : 2 ^ a * 2 ^ (-((a : Int) - b - 1)).toNat ≤ num * 2 ^ (-((a : Int) - b - 1)).toNat :=
      Nat.mul_le_mul_right _ ha
    rw [← Nat.pow_add] at h₁ h₂
    rw [show b + 1 + ((a : Int) - b - 1).toNat = a + (-((a : Int) - b - 1)).toNat by omega] at h₁
    exact Nat.le_trans h₁ h₂
  · rw [Reaches, Nat.not_le]
    have h₁ : num * 2 ^ (-((a : Int) - b + 1)).toNat <
        2 ^ (a + 1) * 2 ^ (-((a : Int) - b + 1)).toNat :=
      Nat.mul_lt_mul_of_pos_right ha' (Nat.pow_pos (by decide))
    have h₂ : 2 ^ b * 2 ^ ((a : Int) - b + 1).toNat ≤ den * 2 ^ ((a : Int) - b + 1).toNat :=
      Nat.mul_le_mul_right _ hb
    rw [← Nat.pow_add] at h₁ h₂
    rw [show a + 1 + (-((a : Int) - b + 1)).toNat = b + ((a : Int) - b + 1).toNat by omega] at h₁
    exact Nat.lt_of_lt_of_le h₁ h₂

theorem leadingBit_spec {num den : Nat} (hnum : num ≠ 0) (hden : den ≠ 0) :
    Reaches num den (leadingBit num den) ∧ ¬ Reaches num den (leadingBit num den + 1) := by
  obtain ⟨hbelow, habove⟩ := reaches_of_bounds (Nat.log2_self_le hnum) Nat.lt_log2_self
    (Nat.log2_self_le hden) Nat.lt_log2_self
  generalize hguess : (num.log2 : Int) - den.log2 = guess at hbelow habove
  have hlead : leadingBit num den = guess ∧ Reaches num den guess ∨
      leadingBit num den = guess - 1 ∧ ¬ Reaches num den guess := by
    unfold leadingBit Reaches
    rw [hguess, Nat.not_le]
    by_cases h : 0 ≤ guess
    · simp only [if_pos h, show (-guess).toNat = 0 by omega, Nat.pow_zero, Nat.mul_one, twoTo_eq]
      split
      · exact .inr ⟨rfl, ‹_›⟩
      · exact .inl ⟨rfl, Nat.le_of_not_lt ‹_›⟩
    · simp only [if_neg h, show guess.toNat = 0 by omega, Nat.pow_zero, Nat.mul_one, twoTo_eq]
      split
      · exact .inr ⟨rfl, ‹_›⟩
      · exact .inl ⟨rfl, Nat.le_of_not_lt ‹_›⟩
  rcases hlead with ⟨h, hr⟩ | ⟨h, hr⟩
  · rw [h]
    exact ⟨hr, habove⟩
  · rw [h, Int.sub_add_cancel]
    exact ⟨hbelow, hr⟩

theorem roundShifted_le {num den : Nat} {e : Int} (h : ¬ Reaches num den (e + 1))
    {shift : Int} (hshift : shift ≤ 52 - e) : roundShifted num den shift ≤ 2 ^ 53 := by
  have hlt := Nat.lt_of_not_le h
  have hrounded : roundShifted num den shift =
      roundHalfEven (num * 2 ^ shift.toNat) (den * 2 ^ (-shift).toNat) := by
    unfold roundShifted
    split
    · rw [show (-shift).toNat = 0 by omega, Nat.pow_zero, Nat.mul_one]
      rfl
    · rw [show shift.toNat = 0 by omega, Nat.pow_zero, Nat.mul_one]
      rfl
  rw [hrounded]
  apply roundHalfEven_le
  rw [Nat.mul_assoc, ← Nat.pow_add]
  exact mul_two_pow_lt hlt (by omega)

theorem nearest?_isSome (negative : Bool) {num den : Nat} (hden : den ≠ 0)
    (h : num < den * 2 ^ 255) : ∃ x, nearest? negative num den = some x := by
  unfold nearest?
  by_cases hnum : num = 0
  · simp [hnum]
  · obtain ⟨hle, hlt⟩ := leadingBit_spec hnum hden
    generalize leadingBit num den = e at hle hlt
    have he : e < 1023 := by
      by_contra hc
      have hreach : den * 2 ^ e.toNat ≤ num := by
        have : (-e).toNat = 0 := by omega
        rw [Reaches, this] at hle
        simpa using hle
      have hpow : den * 2 ^ 255 ≤ den * 2 ^ e.toNat :=
        Nat.mul_le_mul_left den (Nat.pow_le_pow_right (by decide) (by omega))
      omega
    have hround : roundShifted num den (-(max (e - 52) (-1074))) ≤ 2 ^ 53 :=
      roundShifted_le hlt (by omega)
    simp only [beq_iff_eq, hnum, if_false]
    rw [if_pos]
    · exact ⟨_, rfl⟩
    · rw [twoTo_eq]
      have : (max (e - 52) (-1074) + 1074).toNat ≤ 2044 := by omega
      omega

theorem ofInt?_isSome {n : Int} (h : n.natAbs < 2 ^ 255) : ∃ x, ofInt? n = some x :=
  nearest?_isSome _ (by decide) (by rwa [Nat.one_mul])

theorem quotient?_isSome {a b : Int} (hb : b ≠ 0) (h : a.natAbs < b.natAbs * 2 ^ 255) :
    ∃ x, quotient? a b = some x :=
  nearest?_isSome _ (Int.natAbs_ne_zero.2 hb) h

theorem leadingBit_two_pow (n : Nat) : leadingBit (2 ^ n) 1 = n := by
  have h1 : Nat.log2 1 = 0 := by decide
  simp [leadingBit, Nat.log2_two_pow, h1, twoTo_eq]

/-- A power of two keeps all its digits when it is rounded to 53 of them. -/
theorem roundShifted_two_pow (n : Nat) : roundShifted (2 ^ n) 1 (52 - (n : Int)) = 2 ^ 52 := by
  unfold roundShifted
  by_cases h : n ≤ 52
  · rw [if_pos (by omega), show ((52 : Int) - n).toNat = 52 - n by omega, twoTo_eq, ← Nat.pow_add,
      roundHalfEven_one, show n + (52 - n) = 52 by omega]
  · rw [if_neg (by omega), show (-((52 : Int) - n)).toNat = n - 52 by omega, twoTo_eq, Nat.one_mul,
      show (2 : Nat) ^ n = 2 ^ 52 * 2 ^ (n - 52) by rw [← Nat.pow_add]; congr 1; omega]
    exact roundHalfEven_mul_left (Nat.pow_pos (by decide))

theorem ofInt?_two_pow_isSome (n : Nat) :
    (ofInt? ((2 ^ n : Nat) : Int)).isSome = true ↔ n < 1024 := by
  have hne : (2 ^ n : Nat) ≠ 0 := Nat.pos_iff_ne_zero.1 (Nat.pow_pos (by decide))
  have hlow : max ((n : Int) - 52) (-1074) = n - 52 := by omega
  simp only [ofInt?, nearest?, Int.natAbs_natCast, beq_iff_eq, hne, if_false, leadingBit_two_pow,
    hlow, show -((n : Int) - 52) = 52 - n by omega, roundShifted_two_pow, twoTo_eq,
    show ((n : Int) - 52 + 1074).toNat = n + 1022 by omega]
  split <;> simp <;> omega

end ProxyCensus.Decimal
