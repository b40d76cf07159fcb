import ProxyCensus.Proofs.Address

/-!
# Spellings of bytes

Texts that spell the same bytes differ in the case of their digits, in the marker in front of them and in
the blanks around them. Main statement: every spelling of some bytes reads back as these bytes.
-/

namespace ProxyCensus

/-- Around a text without characters of the class, all of the class are taken away. -/
theorem Text.trimBy_surrounded {p : Char → Bool} {before s after : List Char}
    (hbefore : ∀ c ∈ before, p c = true) (hs : ∀ c ∈ s, p c = false)
    (hafter : ∀ c ∈ after, p c = true) : trimBy p (before ++ s ++ after) = s := by
  have hback : after.reverse.dropWhile p = [] := by
    rw [List.dropWhile_eq_nil_iff]
    exact fun c hc => hafter c (List.mem_reverse.1 hc)
  unfold trimBy
  rw [List.append_assoc, List.dropWhile_append_of_pos hbefore]
  cases s with
  | nil =>
    have hfront : after.dropWhile p = [] := List.dropWhile_eq_nil_iff.2 hafter
    rw [List.nil_append, hfront]
    rfl
  | cons c rest =>
    have hkept : ((c :: rest) ++ after).dropWhile p = (c :: rest) ++ after := by
      rw [List.cons_append, List.dropWhile_cons_of_neg (by simp [hs c List.mem_cons_self])]
    have hstop : (c :: rest).reverse.dropWhile p = (c :: rest).reverse := by
      obtain ⟨last, front, hlast⟩ : ∃ last front, (c :: rest).reverse = last :: front :=
        List.exists_cons_of_ne_nil (by simp)
      have hmem : last ∈ c :: rest := List.mem_reverse.1 (hlast ▸ List.mem_cons_self)
      rw [hlast, List.dropWhile_cons_of_neg (by simp [hs last hmem])]
    rw [hkept, List.reverse_append,
      List.dropWhile_append_of_pos fun d hd => hafter d (List.mem_reverse.1 hd), hstop,
      List.reverse_reverse]

namespace Hex

/-- A text spells bytes: around blanks and behind a marker, if there is one, stand their digits, each of
them in either case. -/
inductive Spells (bytes : List UInt8) : String → Prop where
  | intro {before marker digits after : List Char} (hbefore : ∀ c ∈ before, Text.isBlank c = true)
    (hmarker : marker ∈ [[], ['0', 'x'], ['0', 'X']]) (hdigits : digits.map Char.toLower = encode bytes)
    (hafter : ∀ c ∈ after, Text.isBlank c = true) :
    Spells bytes (String.ofList (before ++ (marker ++ digits) ++ after))

theorem digit_injective {m n : Nat} (hm : m < 16) (hn : n < 16) (h : digit m = digit n) : m = n := by
  have hvalue := value?_digit hm
  rw [h, value?_digit hn] at hvalue
  exact (Option.some.inj hvalue).symm

theorem value?_of_toLower {c : Char} {n : Nat} (hn : n < 16) (h : c.toLower = digit n) :
    value? c = some n := by
  have hdigit : isDigit c = true := by
    rw [← isDigit_toLower, h, isDigit, value?_digit hn]
    rfl
  obtain ⟨m, hm⟩ := Option.isSome_iff_exists.1 hdigit
  rw [hm, digit_injective (value?_lt hm) hn ((toLower_of_value? hm).symm.trans h)]

theorem not_isBlank_of_value? {c : Char} {n : Nat} (h : value? c = some n) :
    Text.isBlank c = false := by
  have hall : ∀ k : Fin 128, (value? (Char.ofNat k)).isSome = true →
      Text.isBlank (Char.ofNat k) = false := by decide
  have hc := hall ⟨c.toNat, value?_ascii h⟩
  rw [Char.ofNat_toNat] at hc
  exact hc (by rw [h]; rfl)

theorem not_isPlainSpace_of_value? {c : Char} {n : Nat} (h : value? c = some n) :
    Text.isPlainSpace c = false :=
  Bool.eq_false_iff.2 fun hspace =>
    absurd (Text.isBlank_of_isPlainSpace hspace) (by simp [not_isBlank_of_value? h])

theorem exists_value?_of_mem {digits : List Char} {bytes : List UInt8}
    (h : digits.map Char.toLower = encode bytes) {c : Char} (hc : c ∈ digits) :
    ∃ n < 16, value? c = some n := by
  obtain ⟨n, hn, hlower⟩ := mem_encode (h ▸ List.mem_map_of_mem hc)
  exact ⟨n, hn, value?_of_toLower hn hlower⟩

theorem decodeFrom_of_toLower {bytes : List UInt8} :
    ∀ {digits : List Char} (pos : Nat), digits.map Char.toLower = encode bytes →
      decodeFrom pos digits = .ok bytes := by
  induction bytes with
  | nil =>
    intro digits pos h
    obtain rfl := List.map_eq_nil_iff.1 h
    rfl
  | cons b rest ih =>
    intro digits pos h
    have hb : b.toNat < 256 := b.toNat_lt
    have hspell : 16 * (b.toNat / 16) + b.toNat % 16 = b.toNat := by omega
    rw [encode_cons] at h
    obtain ⟨high, digits, rfl, hhigh, h⟩ := List.map_eq_cons_iff.1 h
    obtain ⟨low, digits, rfl, hlow, h⟩ := List.map_eq_cons_iff.1 h
    have hhigh := value?_of_toLower (by omega) hhigh
    have hlow := value?_of_toLower (by omega) hlow
    simp only [decodeFrom, not_isPlainSpace_of_value? hhigh, hhigh, hlow, ih (pos + 2) h]
    simp [hspell, bind, Except.bind, pure, Except.pure]

theorem decode_of_toLower {digits : List Char} {bytes : List UInt8}
    (h : digits.map Char.toLower = encode bytes) : decode digits = .ok bytes := by
  have hascii : digits.findIdx? (128 ≤ ·.toNat) = none := by
    rw [List.findIdx?_eq_none_iff]
    intro c hc
    obtain ⟨n, -, hn⟩ := exists_value?_of_mem h hc
    simpa using value?_ascii hn
  rw [decode, hascii]
  exact decodeFrom_of_toLower 0 h

theorem ne_x_of_value? {c : Char} {n : Nat} (h : value? c = some n) : c ≠ 'x' ∧ c ≠ 'X' := by
  constructor <;>
  · rintro rfl
    cases h

theorem dropMarker_of_value? {digits : List Char} (h : ∀ c ∈ digits, ∃ n < 16, value? c = some n) :
    dropMarker digits = digits := by
  unfold dropMarker
  split
  · obtain ⟨n, -, hn⟩ := h 'x' (by simp)
    exact absurd rfl (ne_x_of_value? hn).1
  · obtain ⟨n, -, hn⟩ := h 'X' (by simp)
    exact absurd rfl (ne_x_of_value? hn).2
  · rfl

theorem exists_marker (s : List Char) :
    ∃ marker ∈ [[], ['0', 'x'], ['0', 'X']], s = marker ++ dropMarker s := by
  unfold dropMarker
  split
  · exact ⟨['0', 'x'], by simp, rfl⟩
  · exact ⟨['0', 'X'], by simp, rfl⟩
  · exact ⟨[], by simp, rfl⟩

theorem mem_marker {marker : List Char} (h : marker ∈ [[], ['0', 'x'], ['0', 'X']]) {c : Char}
    (hc : c ∈ marker) : c = '0' ∨ c = 'x' ∨ c = 'X' := by
  simp only [List.mem_cons, List.not_mem_nil, or_false] at h
  rcases h with rfl | rfl | rfl
  · cases hc
  · simp only [List.mem_cons, List.not_mem_nil, or_false] at hc
    exact hc.imp_right .inl
  · simp only [List.mem_cons, List.not_mem_nil, or_false] at hc
    exact hc.imp_right .inr

variable {bytes : List UInt8} {text : String}

/-- What is left of a spelling without the blanks and the marker are the digits of the bytes. -/
theorem Spells.toLower_clean (h : Spells bytes text) : (clean text).map Char.toLower = encode bytes := by
  obtain @⟨before, marker, digits, after, hbefore, hmarker, hdigits, hafter⟩ := h
  have hvalue := fun c => exists_value?_of_mem (c := c) hdigits
  have hplain : ∀ c ∈ marker ++ digits, Text.isBlank c = false := by
    intro c hc
    rcases List.mem_append.1 hc with hc | hc
    · rcases mem_marker hmarker hc with rfl | rfl | rfl <;> rfl
    · obtain ⟨n, -, hn⟩ := hvalue c hc
      exact not_isBlank_of_value? hn
  have hdrop : dropMarker (marker ++ digits) = digits := by
    simp only [List.mem_cons, List.not_mem_nil, or_false] at hmarker
    rcases hmarker with rfl | rfl | rfl
    · exact dropMarker_of_value? hvalue
    · rfl
    · rfl
  rw [clean, String.toList_ofList, Text.trimBy_surrounded hbefore hplain hafter, hdrop, hdigits]

/-- Every spelling of bytes reads back as these bytes. -/
theorem Spells.decode_clean (h : Spells bytes text) : decode (clean text) = .ok bytes :=
  decode_of_toLower h.toLower_clean

theorem spells_encode (bytes : List UInt8) :
    Spells bytes (String.ofList ('0' :: 'x' :: encode bytes)) := by
  have hlower : (encode bytes).map Char.toLower = encode bytes := by
    refine (List.map_congr_left fun c hc => ?_).trans (List.map_id _)
    obtain ⟨n, hn, rfl⟩ := mem_encode hc
    exact toLower_of_value? (value?_digit hn)
  have h : Spells bytes (String.ofList ([] ++ (['0', 'x'] ++ encode bytes) ++ [])) :=
    .intro (by simp) (by simp) hlower (by simp)
  rwa [List.append_nil, List.nil_append] at h

theorem encode_append (bytes bytes' : List UInt8) :
    encode (bytes ++ bytes') = encode bytes ++ encode bytes' :=
  List.flatMap_append

theorem exists_encode_of_digits {n : Nat} :
    ∀ {digits : List Char}, digits.all isDigit = true → digits.length = 2 * n →
      ∃ bytes : List UInt8, bytes.length = n ∧ digits.map Char.toLower = encode bytes := by
  induction n with
  | zero =>
    intro digits _ hlength
    obtain rfl := List.eq_nil_of_length_eq_zero hlength
    exact ⟨[], rfl, rfl⟩
  | succ n ih =>
    intro digits hdigits hlength
    match digits, hlength with
    | c :: d :: rest, hlength =>
      simp only [List.all_cons, Bool.and_eq_true] at hdigits
      obtain ⟨hc, hd, hrest⟩ := hdigits
      obtain ⟨high, hhigh⟩ := Option.isSome_iff_exists.1 hc
      obtain ⟨low, hlow⟩ := Option.isSome_iff_exists.1 hd
      obtain ⟨bytes, hbytes, hspells⟩ := ih hrest (by simpa [Nat.mul_succ] using hlength)
      have hlt := value?_lt hhigh
      have hlt' := value?_lt hlow
      have hbyte : (16 * high + low).toUInt8.toNat = 16 * high + low := by
        simp only [Nat.toUInt8, UInt8.toNat_ofNat']
        omega
      refine ⟨(16 * high + low).toUInt8 :: bytes, by rw [List.length_cons, hbytes], ?_⟩
      have hfirst : (16 * high + low) / 16 = high := by omega
      have hsecond : (16 * high + low) % 16 = low := by omega
      rw [List.map_cons, List.map_cons, toLower_of_value? hhigh, toLower_of_value? hlow, hspells,
        encode_cons, hbyte, hfirst, hsecond]

theorem encode_injective {bytes bytes' : List UInt8} (h : encode bytes = encode bytes') :
    bytes = bytes' := by
  have hdecode := decode_encode bytes
  rw [h, decode_encode] at hdecode
  exact (Except.ok.inj hdecode).symm

end Hex

namespace Address

variable {s address : String}

/-- An accepted text has digits behind its marker, if there is one, and its normal form has these digits
in lower case. -/
theorem exists_of_normalize? (h : normalize? s = some address) :
    ∃ marker digits : List Char, marker ∈ [[], ['0', 'x'], ['0', 'X']] ∧ s.toList = marker ++ digits ∧
      digits.length = 40 ∧ digits.all Hex.isDigit = true ∧
      address = String.ofList ('0' :: 'x' :: digits.map Char.toLower) := by
  unfold normalize? at h
  split at h
  · rename_i haccepted
    simp only [isAddress, Bool.and_eq_true, beq_iff_eq] at haccepted
    obtain ⟨marker, hmarker, hsplit⟩ := Hex.exists_marker s.toList
    exact ⟨marker, _, hmarker, hsplit, haccepted.1, haccepted.2, (Option.some.inj h).symm⟩
  · cases h

theorem ascii_of_normalize? (h : normalize? s = some address) : ∀ c ∈ s.toList, c.toNat < 128 := by
  obtain ⟨marker, digits, hmarker, hsplit, -, hdigits, -⟩ := exists_of_normalize? h
  intro c hc
  rw [hsplit] at hc
  rcases List.mem_append.1 hc with hc | hc
  · rcases Hex.mem_marker hmarker hc with rfl | rfl | rfl <;> decide
  · obtain ⟨n, hn⟩ := Option.isSome_iff_exists.1 (List.all_eq_true.1 hdigits c hc)
    exact Hex.value?_ascii hn

/-- An accepted spelling of an address spells twenty bytes. -/
theorem exists_spells_of_normalize? (h : normalize? s = some address) :
    ∃ bytes : List UInt8, bytes.length = 20 ∧ Hex.Spells bytes s ∧ address = ofBytes bytes := by
  obtain ⟨marker, digits, hmarker, hsplit, hlength, hdigits, rfl⟩ := exists_of_normalize? h
  obtain ⟨bytes, hbytes, hspelled⟩ := Hex.exists_encode_of_digits (n := 20) hdigits hlength
  refine ⟨bytes, hbytes, ?_, by rw [hspelled, ofBytes]⟩
  have hspells : Hex.Spells bytes (String.ofList ([] ++ (marker ++ digits) ++ [])) :=
    .intro (by simp) hmarker hspelled (by simp)
  rwa [List.append_nil, List.nil_append, ← hsplit, String.ofList_toList] at hspells

end Address

end ProxyCensus
