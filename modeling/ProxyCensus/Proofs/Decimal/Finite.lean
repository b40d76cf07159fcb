import ProxyCensus.Proofs.Decimal.Nearest

/-!
# Finite doubles

Which doubles are finite. Main statements: the double next to a quotient is, and so is a tenth of
every finite double; a finite double is finite when it is taken apart.
-/

namespace ProxyCensus.Decimal

open Float.Model Float.Model.UnpackedFloat

theorem toNat_one_append_pos {w : Nat} (x : BitVec w) : 0 < (1#1 ++ x).toNat := by
  simp

/-- Bits stand for an infinity or no number, or else for a finite number with an exponent and digits
within those of a double. -/
theorem unpack_cases (b : BitVec Format.binary64.numBits) :
    (unpackExponent b : BitVec 11) = -1#_ ∧
        (UnpackedFloat.unpack Format.binary64 b).isFinite = false ∨
      (unpackExponent b : BitVec 11) ≠ -1#_ ∧
        ((∃ s, UnpackedFloat.unpack Format.binary64 b = .zero s) ∨
          ∃ s m e hm, UnpackedFloat.unpack Format.binary64 b = .finite s m e hm ∧
            m < 2 ^ 53 ∧ e ≤ 971) := by
  have hbias : (Format.binary64.exponentBias : Int) = 1023 := rfl
  have hlt : (unpackExponent b : BitVec 11).toNat < 2048 := BitVec.isLt _
  unfold UnpackedFloat.unpack
  dsimp only
  by_cases h : (unpackExponent b : BitVec 11) = -1#_
  · refine .inl ⟨h, ?_⟩
    rw [if_pos h]
    by_cases hm : (unpackMantissa b : BitVec 52) = 0#_
    · rw [if_pos hm]
      rfl
    · rw [if_neg hm]
      rfl
  · refine .inr ⟨h, ?_⟩
    have hne : (unpackExponent b : BitVec 11).toNat ≠ 2047 :=
      fun hc => h (BitVec.eq_of_toNat_eq (hc.trans (by decide)))
    rw [if_neg h]
    by_cases hzero : (unpackExponent b : BitVec 11) = 0#_
    · have h0 : (unpackExponent b : BitVec 11).toNat = 0 := by
        rw [hzero]
        rfl
      rw [if_pos hzero]
      by_cases hm : (unpackMantissa b : BitVec 52) = 0#_
      · rw [dif_pos hm]
        exact .inl ⟨_, rfl⟩
      · have hpos : 0 < (unpackMantissa b : BitVec 52).toNat :=
          Nat.pos_of_ne_zero fun h0 => hm (BitVec.eq_of_toNat_eq h0)
        rw [dif_neg hm]
        exact .inr ⟨_, _, _, hpos, rfl, Nat.lt_of_lt_of_le (BitVec.isLt _) (by decide), by omega⟩
    · have hpos : 0 < (1#1 ++ (unpackMantissa b : BitVec 52)).toNat := toNat_one_append_pos _
      rw [if_neg hzero]
      exact .inr ⟨_, _, _, hpos, rfl, BitVec.isLt _, by omega⟩

theorem isFinite_unpack_iff (b : BitVec Format.binary64.numBits) :
    (UnpackedFloat.unpack Format.binary64 b).isFinite = true ↔
      (unpackExponent b : BitVec 11) ≠ -1#_ := by
  rcases unpack_cases b with ⟨h, hinfinite⟩ | ⟨h, ⟨s, hb⟩ | ⟨s, m, e, hm, hb, -, -⟩⟩
  · rw [hinfinite]
    exact iff_of_false Bool.false_ne_true (not_not_intro h)
  · rw [hb]
    exact iff_of_true rfl h
  · rw [hb]
    exact iff_of_true rfl h

/-- A number whose digits stand for no more than the largest double. -/
inductive Fits : UnpackedFloat → Prop
  | zero (s : Sign) : Fits (.zero s)
  | finite {s : Sign} {m : Nat} {e : Int} (hm : 0 < m) (he : e ≤ 971) : Fits (.finite s m e hm)

theorem isFinite_pack {u : UnpackedFloat} (h : Fits u) :
    (Float.Model.pack u).isFinite = true := by
  change (UnpackedFloat.unpack Format.binary64 (UnpackedFloat.pack Format.binary64 u)).isFinite = true
  rw [isFinite_unpack_iff]
  cases h with
  | zero s =>
    unfold UnpackedFloat.pack packedZero
    rw [unpackExponent_packComponents]
    decide
  | @finite s m e hm he =>
    unfold UnpackedFloat.pack
    dsimp only
    have hbias : (Format.binary64.exponentBias : Int) = 1023 := rfl
    rw [if_neg (by omega)]
    split
    · rw [unpackExponent_packComponents]
      intro hc
      have := congrArg BitVec.toNat hc
      rw [BitVec.toNat_ofNat] at this
      have hne : (-1#11 : BitVec 11).toNat = 2047 := by decide
      rw [hne] at this
      omega
    · rw [unpackExponent_packComponents]
      decide

theorem fits_unpack {b : BitVec Format.binary64.numBits}
    (h : (unpackExponent b : BitVec 11) ≠ -1#_) :
    Fits (UnpackedFloat.unpack Format.binary64 b) := by
  rcases unpack_cases b with ⟨hne, -⟩ | ⟨-, ⟨s, hb⟩ | ⟨s, m, e, hm, hb, -, he⟩⟩
  · exact absurd hne h
  · rw [hb]
    exact .zero s
  · rw [hb]
    exact .finite hm he

theorem roundToNearestEven_le (m : Nat) (acc : Accuracy) : acc.roundToNearestEven m ≤ m + 1 := by
  unfold Accuracy.roundToNearestEven
  split <;> omega

theorem mantissa_shiftRight (em : ExtendedMantissa) (n : Nat) :
    (em >>> n).mantissa = em.mantissa / 2 ^ n := by
  change (n.repeat ExtendedMantissa.shiftRightOne em).mantissa = _
  induction n with
  | zero => simp [Nat.repeat]
  | succ n ih =>
    rw [Nat.repeat, ExtendedMantissa.shiftRightOne]
    dsimp only
    rw [ih, Nat.div_div_eq_div_mul, Nat.pow_succ]

theorem mantissa_ofMantissaAndAccuracy (m : Nat) (acc : Accuracy) :
    (ExtendedMantissa.ofMantissaAndAccuracy m acc).mantissa = m := by
  unfold ExtendedMantissa.ofMantissaAndAccuracy
  split <;> rfl

theorem targetExponent_binary64 (t : Int) :
    Format.binary64.targetExponent t = max (t - 53) (-1074) := rfl

/-- What is shifted to its place has at most 53 digits, and its exponent is the greater one of the
old exponent and of that place. -/
theorem shiftToTargetExponent_spec (m : Nat) (e : Int) (acc : Accuracy) :
    (shiftToTargetExponent Format.binary64 m e acc).1.mantissa < 2 ^ 53 ∧
      (shiftToTargetExponent Format.binary64 m e acc).2 =
        max e (max ((m.log2 : Int) + 1 + e - 53) (-1074)) := by
  unfold shiftToTargetExponent shiftToExponent
  dsimp only
  rw [mantissa_shiftRight, mantissa_ofMantissaAndAccuracy, targetExponent_binary64, totalExponent]
  refine ⟨?_, by omega⟩
  rw [Nat.div_lt_iff_lt_mul (Nat.pow_pos (by decide)), ← Nat.pow_add]
  exact Nat.lt_of_lt_of_le Nat.lt_log2_self (Nat.pow_le_pow_right (by decide) (by omega))

theorem fits_roundWithAccuracy (s : Sign) {m : Nat} {e : Int} (acc : Accuracy) (he : e ≤ 970)
    (hm : (m.log2 : Int) + 1 + e ≤ 1023) :
    Fits (roundWithAccuracy Format.binary64 s m e acc) := by
  obtain ⟨hlt, hexp⟩ := shiftToTargetExponent_spec m e acc
  unfold roundWithAccuracy
  generalize shiftToTargetExponent Format.binary64 m e acc = first at hlt hexp
  obtain ⟨em, e₁⟩ := first
  dsimp only at hlt hexp ⊢
  obtain ⟨-, hexp₂⟩ := shiftToTargetExponent_spec em.roundedMantissa e₁ .exact
  have hrounded : em.roundedMantissa ≤ 2 ^ 53 := by
    have := roundToNearestEven_le em.mantissa em.accuracy
    unfold ExtendedMantissa.roundedMantissa
    omega
  have hlog : em.roundedMantissa.log2 ≤ 53 := by
    by_cases h : em.roundedMantissa = 0
    · rw [h]
      decide
    · have : em.roundedMantissa < 2 ^ 54 := by omega
      exact Nat.le_of_lt_succ ((Nat.log2_lt h).2 this)
  generalize shiftToTargetExponent Format.binary64 em.roundedMantissa e₁ .exact = second at hexp₂
  obtain ⟨em₂, e₂⟩ := second
  dsimp only at hexp₂ ⊢
  by_cases hzero : em₂.mantissa = 0
  · rw [dif_pos hzero]
    exact .zero s
  · rw [dif_neg hzero]
    exact .finite _ (by omega)

theorem mantissa_unpack {b : BitVec Format.binary64.numBits} {s : Sign} {m : Nat} {e : Int}
    {hm : 0 < m} (h : UnpackedFloat.unpack Format.binary64 b = .finite s m e hm) : m < 2 ^ 53 := by
  rcases unpack_cases b with ⟨-, hinfinite⟩ | ⟨-, ⟨s, hb⟩ | ⟨s, m, e, hm, hb, hlt, -⟩⟩
  · rw [h] at hinfinite
    cases hinfinite
  · rw [h] at hb
    cases hb
  · rw [h] at hb
    cases hb
    exact hlt

theorem fits_div_ten {s : Sign} {m : Nat} {e : Int} (hm : 0 < m) (he : e ≤ 971) (hlt : m < 2 ^ 53) :
    Fits (UnpackedFloat.div Format.binary64 (.finite s m e hm)
      (.finite .positive (10 * 2 ^ 49) (-49) (by decide))) := by
  unfold UnpackedFloat.div divCore
  dsimp only
  rw [targetExponent_binary64, totalExponent, totalExponent]
  have hten : (10 * 2 ^ 49 : Nat).log2 = 52 := by decide
  have hlog : m.log2 ≤ 52 := Nat.le_of_lt_succ ((Nat.log2_lt (by omega)).2 hlt)
  rw [hten]
  generalize htarget : min (e - -49) (max ((m.log2 : Int) + 1 + e - ((52 : Nat) + 1 + -49) - 53)
    (-1074)) = target
  apply fits_roundWithAccuracy _ _ (by omega)
  generalize hshift : (e - -49 - target).toNat = shift
  have hbound : (m <<< shift / (10 * 2 ^ 49)).log2 ≤ m.log2 + shift - 52 := by
    by_cases hzero : m <<< shift / (10 * 2 ^ 49) = 0
    · rw [hzero]
      exact Nat.zero_le _
    · refine Nat.le_of_lt_succ ((Nat.log2_lt hzero).2 ?_)
      have hge : 10 * 2 ^ 49 ≤ m <<< shift := Nat.le_of_not_lt fun h => hzero (Nat.div_eq_of_lt h)
      have hm' : m <<< shift < 2 ^ (m.log2 + 1 + shift) := by
        rw [Nat.shiftLeft_eq, Nat.pow_add]
        exact Nat.mul_lt_mul_of_pos_right Nat.lt_log2_self (Nat.pow_pos (by decide))
      have hwide : 53 ≤ m.log2 + 1 + shift := by
        by_contra hc
        have : 2 ^ (m.log2 + 1 + shift) ≤ 2 ^ 52 := Nat.pow_le_pow_right (by decide) (by omega)
        omega
      rw [Nat.div_lt_iff_lt_mul (by decide)]
      apply Nat.lt_of_lt_of_le hm'
      calc 2 ^ (m.log2 + 1 + shift) = 2 ^ (m.log2 + shift - 52 + 1) * 2 ^ 52 := by
            rw [← Nat.pow_add]
            congr 1
            omega
        _ ≤ 2 ^ (m.log2 + shift - 52 + 1) * (10 * 2 ^ 49) :=
            Nat.mul_le_mul_left _ (by decide)
  omega

theorem toNat_unpackExponent (b : BitVec 64) :
    (@unpackExponent Format.binary64 b : BitVec 11).toNat = b.toNat / 2 ^ 52 % 2 ^ 11 := by
  unfold unpackExponent
  rw [BitVec.toNat_cast, BitVec.extractLsb_toNat, Nat.shiftRight_eq_div_pow]
  rfl

theorem unpackExponent_ne_iff (b : BitVec 64) :
    (@unpackExponent Format.binary64 b : BitVec 11) ≠ -1#_ ↔
      b.toNat / 2 ^ 52 % 2 ^ 11 ≠ 2047 := by
  rw [← toNat_unpackExponent, not_iff_not]
  constructor
  · intro h
    rw [h]
    rfl
  · exact fun h => BitVec.eq_of_toNat_eq (h.trans (by decide))

theorem isFinite_ofBits {b : UInt64} (h : b.toNat / 2 ^ 52 % 2 ^ 11 ≠ 2047) :
    (Float.ofBits b).isFinite = true :=
  isFinite_pack (fits_unpack ((unpackExponent_ne_iff _).2 h))

theorem isFinite_of_nearest? {negative : Bool} {num den : Nat} {x : Float}
    (h : nearest? negative num den = some x) : x.isFinite = true := by
  unfold nearest? at h
  dsimp only at h
  generalize (max (leadingBit num den - 52) (-1074) + 1074).toNat * twoTo 52 +
    roundShifted num den (-max (leadingBit num den - 52) (-1074)) = bits at h
  split at h
  · obtain rfl := Option.some.inj h
    cases negative <;> decide
  · split at h
    · rename_i hbits
      obtain rfl := Option.some.inj h
      apply isFinite_ofBits
      rw [twoTo_eq] at hbits
      rw [Nat.toUInt64_eq, UInt64.toNat_ofNat', twoTo_eq]
      split <;> omega
    · cases h

theorem ofFloat_of_isFinite {x : Float} (h : x.isFinite = true) :
    ∃ negative mantissa exponent, Binary.ofFloat x = .finite negative mantissa exponent := by
  have hne : x.toBits.toNat / 2 ^ 52 % 2 ^ 11 ≠ 2047 :=
    (unpackExponent_ne_iff _).1 ((isFinite_unpack_iff _).1 h)
  unfold Binary.ofFloat
  simp only [twoTo_eq, beq_iff_eq, if_neg hne]
  split <;> exact ⟨_, _, _, rfl⟩

theorem isFinite_div_ten {x : Float} (h : x.isFinite = true) :
    (x / Float.ofBits 0x4024000000000000).isFinite = true := by
  have hfits := fits_unpack ((isFinite_unpack_iff _).1 h)
  apply isFinite_pack
  change Fits (UnpackedFloat.div Format.binary64
    (UnpackedFloat.unpack Format.binary64 x.toModel.toBits.toBitVec)
    (.finite .positive (10 * 2 ^ 49) (-49) (by decide)))
  generalize hu : UnpackedFloat.unpack Format.binary64 x.toModel.toBits.toBitVec = u at hfits
  cases hfits with
  | zero s => exact .zero _
  | finite hm he => exact fits_div_ten hm he (mantissa_unpack hu)

end ProxyCensus.Decimal
