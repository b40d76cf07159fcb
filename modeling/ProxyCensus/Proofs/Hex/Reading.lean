import Mathlib.Data.List.Basic
import ProxyCensus.Proofs.Act
import ProxyCensus.Proofs.Hex.Spelling

/-!
# Texts that read as bytes

Reading takes two digits for a byte and passes over plain white space between bytes. Main statement: a
text reads as bytes exactly when it is made of pairs of digits and plain white space. So a text with an
odd number of digits is refused, and so is one with any other character.
-/

namespace ProxyCensus.Hex

/-- A text is made of pairs of digits, one for each byte, and of plain white space around the pairs. -/
inductive Paired : List UInt8 → List Char → Prop where
  | nil : Paired [] []
  | space {bytes : List UInt8} {s : List Char} {c : Char} (hc : Text.isPlainSpace c = true)
    (h : Paired bytes s) : Paired bytes (c :: s)
  | pair {bytes : List UInt8} {s : List Char} {c d : Char} {high low : Nat}
    (hc : value? c = some high) (hd : value? d = some low) (h : Paired bytes s) :
    Paired ((16 * high + low).toUInt8 :: bytes) (c :: d :: s)

variable {bytes : List UInt8} {s : List Char} {text : String}

theorem Paired.decodeFrom_eq (h : Paired bytes s) : ∀ pos, decodeFrom pos s = .ok bytes := by
  induction h with
  | nil => exact fun _ => rfl
  | space hc _ ih => exact fun pos => by simp [decodeFrom, hc, ih]
  | pair hc hd _ ih =>
    intro pos
    simp [decodeFrom, not_isPlainSpace_of_value? hc, hc, hd, ih, bind, Except.bind, pure, Except.pure]

theorem paired_of_decodeFrom {pos : Nat} (h : decodeFrom pos s = .ok bytes) : Paired bytes s := by
  -- the cases are those in which reading goes on or stops
  induction pos, s using decodeFrom.induct generalizing bytes with
  | case1 pos =>
    obtain rfl : [] = bytes := Except.ok.inj h
    exact .nil
  | case2 pos c rest hc ih =>
    rw [decodeFrom, if_pos hc] at h
    exact .space hc (ih h)
  | case3 pos c rest hspace hc => simp [decodeFrom, hspace, hc] at h
  | case4 pos c hspace high hc => simp [decodeFrom, hspace, hc] at h
  | case5 pos c hspace high hc d rest hd => simp [decodeFrom, hspace, hc, hd] at h
  | case6 pos c hspace high hc d rest low hd ih =>
    simp only [decodeFrom, hspace, hc, hd] at h
    obtain ⟨more, hmore, h⟩ := bind_eq_ok_iff.1 h
    obtain rfl := Except.ok.inj h
    exact .pair hc hd (ih hmore)

theorem Paired.digit_or_space (h : Paired bytes s) :
    ∀ c ∈ s, isDigit c = true ∨ Text.isPlainSpace c = true := by
  induction h with
  | nil => simp
  | space hc _ ih => exact List.forall_mem_cons.2 ⟨.inr hc, ih⟩
  | pair hc hd _ ih =>
    exact List.forall_mem_cons.2 ⟨.inl (by simp [isDigit, hc]),
      List.forall_mem_cons.2 ⟨.inl (by simp [isDigit, hd]), ih⟩⟩

theorem Paired.countP_isDigit (h : Paired bytes s) : s.countP isDigit = 2 * bytes.length := by
  induction h with
  | nil => rfl
  | @space _ _ c hc _ ih =>
    have hdigit : isDigit c = false := by
      cases hvalue : value? c with
      | none => simp [isDigit, hvalue]
      | some n => simp [not_isPlainSpace_of_value? hvalue] at hc
    simp [hdigit, ih]
  | pair hc hd _ ih =>
    simp [isDigit, hc, hd, ih]
    omega

theorem Paired.ascii (h : Paired bytes s) : ∀ c ∈ s, c.toNat < 128 := by
  intro c hc
  rcases h.digit_or_space c hc with hdigit | hspace
  · obtain ⟨n, hn⟩ := Option.isSome_iff_exists.1 hdigit
    exact value?_ascii hn
  · simp only [Text.isPlainSpace, Bool.or_eq_true, beq_iff_eq, Bool.and_eq_true,
      decide_eq_true_eq] at hspace
    rcases hspace with rfl | hspace
    · decide
    · omega

/-- Exactly the texts of pairs of digits and plain white space read as bytes. -/
theorem decode_eq_ok_iff : decode s = .ok bytes ↔ Paired bytes s := by
  constructor
  · intro h
    unfold decode at h
    split at h
    · cases h
    · exact paired_of_decodeFrom h
  · intro h
    have hascii : s.findIdx? (128 ≤ ·.toNat) = none := by
      rw [List.findIdx?_eq_none_iff]
      intro c hc
      simpa using h.ascii c hc
    rw [decode, hascii]
    exact h.decodeFrom_eq 0

/-- What is left of a text without the blanks around it and one marker has an odd number of digits, or a
character that is neither a digit nor plain white space. -/
def Faulty (text : String) : Prop :=
  (clean text).countP isDigit % 2 = 1 ∨
    ∃ c ∈ clean text, isDigit c = false ∧ Text.isPlainSpace c = false

instance (text : String) : Decidable (Faulty text) :=
  inferInstanceAs (Decidable (_ ∨ _))

theorem Faulty.decode_clean (h : Faulty text) : ∃ pos, decode (clean text) = .error pos := by
  cases hread : decode (clean text) with
  | error pos => exact ⟨pos, rfl⟩
  | ok bytes =>
    have hpaired := decode_eq_ok_iff.1 hread
    rcases h with hodd | ⟨c, hc, hdigit, hspace⟩
    · have := hpaired.countP_isDigit
      omega
    · have := hpaired.digit_or_space c hc
      simp [hdigit, hspace] at this

end ProxyCensus.Hex
