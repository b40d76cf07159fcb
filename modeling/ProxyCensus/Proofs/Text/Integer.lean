import Mathlib.Data.List.TakeDrop
import Mathlib.Data.List.TakeWhile
import ProxyCensus.Text.Integer
import ProxyCensus.Text.Surrogate

/-!
# The text of an integer

An integer is written with a minus sign if it is negative, and its decimal digits. Main statements:
the text has no half of a surrogate pair, nor has any other text that spells an integer; different integers
have different texts; and an integer of not too many digits is read back from its text.
-/

namespace ProxyCensus.Text

open Decimal (isDigit isGrouped natOfDigits plainDigit splitSign)

def integerChars (n : Int) : List Char :=
  if n < 0 then '-' :: Nat.toDigits 10 n.natAbs else Nat.toDigits 10 n.natAbs

theorem toList_toString_int (n : Int) : (toString n).toList = integerChars n := by
  unfold integerChars
  cases n with
  | ofNat m =>
    rw [if_neg (by simp)]
    exact Nat.toList_repr
  | negSucc m =>
    rw [if_pos (Int.negSucc_lt_zero m)]
    change ("-" ++ Nat.repr (m + 1)).toList = _
    rw [String.toList_append, Nat.toList_repr]
    rfl

theorem digit_bounds {c : Char} (h : c.isDigit = true) : 48 ≤ c.toNat ∧ c.toNat ≤ 57 := by
  simp only [Char.isDigit, Bool.and_eq_true, decide_eq_true_eq, ge_iff_le,
    UInt32.le_iff_toNat_le] at h
  exact h

theorem digit_of_mem_toDigits {n : Nat} {c : Char} (h : c ∈ Nat.toDigits 10 n) :
    48 ≤ c.toNat ∧ c.toNat ≤ 57 :=
  digit_bounds (Nat.isDigit_of_mem_toDigits (by decide) (by decide) h)

theorem integerChars_ascii {n : Int} {c : Char} (h : c ∈ integerChars n) :
    c = '-' ∨ 48 ≤ c.toNat ∧ c.toNat ≤ 57 := by
  unfold integerChars at h
  split at h
  · rcases List.mem_cons.1 h with rfl | h
    · exact .inl rfl
    · exact .inr (digit_of_mem_toDigits h)
  · exact .inr (digit_of_mem_toDigits h)

/-- A text below the last private planes has no half of a surrogate pair. -/
theorem hasHalf_eq_false {s : String} (h : ∀ c ∈ s.toList, c.toNat < halfOffset) :
    hasHalf s = false := by
  rw [hasHalf, List.any_eq_false]
  intro c hc
  have := h c hc
  simp [half?, Nat.not_le.2 this]

theorem hasHalf_append (s t : String) : hasHalf (s ++ t) = (hasHalf s || hasHalf t) := by
  unfold hasHalf
  rw [String.toList_append, List.any_append]

theorem hasHalf_toString_int (n : Int) : hasHalf (toString n) = false := by
  refine hasHalf_eq_false fun c hc => ?_
  rw [toList_toString_int] at hc
  rcases integerChars_ascii hc with rfl | h
  · decide
  · have : (57 : Nat) < halfOffset := by decide
    omega

theorem isDigit_of_bounds {c : Char} (h : 48 ≤ c.toNat ∧ c.toNat ≤ 57) : isDigit c = true := by
  simp only [isDigit, Bool.and_eq_true, decide_eq_true_eq, Char.le_def, UInt32.le_iff_toNat_le]
  exact h

theorem plainDigit_of_bounds {c : Char} (h : 48 ≤ c.toNat ∧ c.toNat ≤ 57) : plainDigit c = c := by
  have hv : digitValue? c = some (c.toNat - 48) := by
    unfold digitValue? zeroDigits
    rw [List.find?_cons_of_pos]
    · rfl
    · simp only [Bool.and_eq_true, decide_eq_true_eq]
      omega
  unfold plainDigit
  rw [hv]
  dsimp only
  rw [show 48 + (c.toNat - 48) = c.toNat by omega, Char.ofNat_toNat]

theorem natOfDigits_toDigits (n : Nat) : natOfDigits (Nat.toDigits 10 n) = n := by
  have h := @Nat.ofDigitChars_ten_toDigits n
  rwa [Nat.ofDigitChars_eq_foldl] at h

theorem isGrouped_of_no_underscore {s : List Char} (h : '_' ∉ s) : isGrouped s = true := by
  have hzip : ('_', '_') ∉ s.zip s.tail := fun hm => h (List.of_mem_zip hm).1
  have hhead : s.head? ≠ some '_' := fun hc => h (List.mem_of_head? hc)
  have hlast : s.getLast? ≠ some '_' := fun hc => h (List.mem_of_getLast? hc)
  simp [isGrouped, hzip, hhead, hlast]

theorem not_isWhiteSpace_of_mem {n : Int} {c : Char} (h : c ∈ integerChars n) :
    isWhiteSpace c = false := by
  rcases integerChars_ascii h with rfl | h
  · decide
  · have : isBlank c = false := by
      simp only [isBlank, Bool.or_eq_false_iff, Bool.and_eq_false_iff, beq_eq_false_iff_ne,
        decide_eq_false_iff_not]
      omega
    simp [isWhiteSpace, this]

theorem map_plainDigit_integerChars (n : Int) :
    (integerChars n).map plainDigit = integerChars n := by
  have hid : ∀ c ∈ integerChars n, plainDigit c = id c := by
    intro c hc
    rcases integerChars_ascii hc with rfl | h
    · decide
    · exact plainDigit_of_bounds h
  rw [List.map_congr_left hid, List.map_id]

theorem splitSign_integerChars (n : Int) :
    splitSign (integerChars n) = (decide (n < 0), Nat.toDigits 10 n.natAbs) := by
  unfold integerChars
  by_cases h : n < 0
  · simp [h, splitSign]
  · rw [if_neg h]
    have hne : Nat.toDigits 10 n.natAbs ≠ [] := Nat.toDigits_ne_nil
    have hdigit : ∀ c ∈ Nat.toDigits 10 n.natAbs, 48 ≤ c.toNat ∧ c.toNat ≤ 57 :=
      fun c hc => digit_of_mem_toDigits hc
    generalize Nat.toDigits 10 n.natAbs = digits at hne hdigit
    cases digits with
    | nil => exact absurd rfl hne
    | cons c rest =>
      have hc := hdigit c List.mem_cons_self
      have hminus : c ≠ '-' := by
        rintro rfl
        exact absurd hc (by decide)
      have hplus : c ≠ '+' := by
        rintro rfl
        exact absurd hc (by decide)
      simp [splitSign, h, hminus, hplus]

theorem signed_natAbs (n : Int) : signed (decide (n < 0)) n.natAbs = n := by
  unfold signed
  by_cases h : n < 0
  · simp only [h, decide_true, if_true]
    omega
  · simp only [h, decide_false, Bool.false_eq_true, if_false]
    omega

theorem toString_int_inj {m n : Int} (h : toString m = toString n) : m = n := by
  have hchars : integerChars m = integerChars n := by
    rw [← toList_toString_int, ← toList_toString_int, h]
  have hsplit := congrArg splitSign hchars
  rw [splitSign_integerChars, splitSign_integerChars, Prod.mk.injEq] at hsplit
  have habs : m.natAbs = n.natAbs := by
    rw [← natOfDigits_toDigits m.natAbs, hsplit.2, natOfDigits_toDigits]
  rw [← signed_natAbs m, hsplit.1, habs, signed_natAbs]

/-- The text of an integer spells that integer, unless it has too many digits. -/
theorem integer_toString_eq (n : Int) : integer (toString n) =
    if digitLimit < (Nat.toDigits 10 n.natAbs).length then
      .error (.tooLong (Nat.toDigits 10 n.natAbs).length)
    else .ok n := by
  have hdigit : ∀ c ∈ Nat.toDigits 10 n.natAbs, isDigit c = true :=
    fun c hc => isDigit_of_bounds (digit_of_mem_toDigits hc)
  have hunder : '_' ∉ Nat.toDigits 10 n.natAbs := Nat.underscore_not_in_toDigits
  have hne : Nat.toDigits 10 n.natAbs ≠ [] := Nat.toDigits_ne_nil
  have htrim : trimBy isWhiteSpace (integerChars n) = integerChars n :=
    trimBy_eq_self (fun c hc => not_isWhiteSpace_of_mem (List.mem_of_head? hc))
      fun c hc => not_isWhiteSpace_of_mem (List.mem_of_getLast? hc)
  have hspan : (Nat.toDigits 10 n.natAbs).span (fun c => isDigit c || c == '_') =
      (Nat.toDigits 10 n.natAbs, []) := by
    rw [List.span_eq_takeWhile_dropWhile, List.takeWhile_eq_self_iff.2, List.dropWhile_eq_nil_iff.2]
    · intro c hc
      simp [hdigit c hc]
    · intro c hc
      simp [hdigit c hc]
  have hfilter : (Nat.toDigits 10 n.natAbs).filter isDigit = Nat.toDigits 10 n.natAbs :=
    List.filter_eq_self.2 hdigit
  unfold integer
  rw [toList_toString_int, htrim, map_plainDigit_integerChars, splitSign_integerChars]
  dsimp only
  rw [hspan]
  dsimp only
  rw [hfilter, isGrouped_of_no_underscore hunder, natOfDigits_toDigits, signed_natAbs]
  simp [hne]

theorem integer_toString {n : Int} (h : (Nat.toDigits 10 n.natAbs).length ≤ digitLimit) :
    integer (toString n) = .ok n := by
  rw [integer_toString_eq, if_neg (Nat.not_lt.2 h)]

/-- No other integer is read from the text of an integer. -/
theorem eq_of_integer_toString {m n : Int} (h : integer (toString n) = .ok m) : m = n := by
  rw [integer_toString_eq] at h
  split at h
  · cases h
  · exact (Except.ok.inj h).symm

theorem mem_dropWhile {p : Char → Bool} {s : List Char} {c : Char} (hc : c ∈ s) (hp : p c = false) :
    c ∈ s.dropWhile p := by
  rw [← List.takeWhile_append_dropWhile (p := p) (l := s)] at hc
  rcases List.mem_append.1 hc with hc | hc
  · exact absurd (hp.symm.trans (List.mem_takeWhile_imp hc)) (by decide)
  · exact hc

theorem mem_trimBy {p : Char → Bool} {s : List Char} {c : Char} (hc : c ∈ s) (hp : p c = false) :
    c ∈ trimBy p s :=
  List.mem_reverse.2 (mem_dropWhile (List.mem_reverse.2 (mem_dropWhile hc hp)) hp)

theorem mem_splitSign {s : List Char} {c : Char} (hc : c ∈ s) (hminus : c ≠ '-') (hplus : c ≠ '+') :
    c ∈ (splitSign s).2 := by
  unfold splitSign
  split
  · exact (List.mem_cons.1 hc).resolve_left hminus
  · exact (List.mem_cons.1 hc).resolve_left hplus
  · exact hc

theorem digitValue?_of_large {c : Char} (h : halfOffset ≤ c.toNat) : digitValue? c = none := by
  have hzeros : ∀ z ∈ zeroDigits, z + 10 ≤ halfOffset := by decide
  rw [digitValue?, Option.map_eq_none_iff, List.find?_eq_none]
  intro z hz
  have := hzeros z hz
  simp only [Bool.and_eq_true, decide_eq_true_eq]
  omega

theorem isWhiteSpace_of_large {c : Char} (h : halfOffset ≤ c.toNat) : isWhiteSpace c = false := by
  have hblank : isBlank c = false := by
    simp only [isBlank, Bool.or_eq_false_iff, Bool.and_eq_false_iff, beq_eq_false_iff_ne,
      decide_eq_false_iff_not, halfOffset] at h ⊢
    omega
  simp [isWhiteSpace, hblank]

theorem isDigit_of_large {c : Char} (h : halfOffset ≤ c.toNat) : isDigit c = false := by
  have hnine : '9'.toNat < halfOffset := by decide
  simp only [isDigit, Bool.and_eq_false_iff, decide_eq_false_iff_not, Char.le_def,
    UInt32.le_iff_toNat_le]
  exact .inr (Nat.not_le.2 (Nat.lt_of_lt_of_le hnine h))

/-- What an integer is spelled with is white space, a sign, digits and underscores. -/
theorem small_of_integer {s : String} {n : Int} (h : integer s = .ok n) {c : Char} (hc : c ∈ s.toList) :
    c.toNat < halfOffset := by
  refine Nat.lt_of_not_le fun hlarge => ?_
  have hne : ∀ d : Char, d.toNat < halfOffset → c ≠ d := by
    rintro d hd rfl
    omega
  have hplain : plainDigit c = c := by
    unfold plainDigit
    rw [digitValue?_of_large hlarge]
  have hnone : (isDigit c || c == '_') = false := by
    simpa [isDigit_of_large hlarge] using hne '_' (by decide)
  have hmem : c ∈ (splitSign ((trimBy isWhiteSpace s.toList).map plainDigit)).2 := by
    refine mem_splitSign ?_ (hne '-' (by decide)) (hne '+' (by decide))
    exact List.mem_map.2 ⟨c, mem_trimBy hc (isWhiteSpace_of_large hlarge), hplain⟩
  unfold integer at h
  generalize splitSign ((trimBy isWhiteSpace s.toList).map plainDigit) = parts at h hmem
  obtain ⟨negative, body⟩ := parts
  dsimp only at h hmem
  rw [List.span_eq_takeWhile_dropWhile] at h
  have hrest := mem_dropWhile (p := fun c => isDigit c || c == '_') hmem hnone
  dsimp only at h
  split at h
  · cases h
  · split at h
    · cases h
    · split at h
      · cases h
      · rename_i hends
        simp only [Bool.or_eq_true, not_or, Bool.not_eq_true, Bool.not_eq_false', List.isEmpty_iff] at hends
        rw [hends.2] at hrest
        cases hrest

theorem hasHalf_of_int? {s : String} {n : Int} (h : int? s = some n) : hasHalf s = false := by
  unfold int? at h
  cases hs : integer s with
  | ok n => exact hasHalf_eq_false fun c hc => small_of_integer hs hc
  | error e =>
    rw [hs] at h
    cases h

end ProxyCensus.Text
