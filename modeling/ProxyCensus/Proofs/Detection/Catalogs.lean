import Mathlib.Data.List.Infix
import Mathlib.Data.List.Nodup
import ProxyCensus.Proofs.Detection.Shows
import ProxyCensus.Proofs.Hex.Spelling

/-!
# Detection with other catalogs

Which rows of a catalog are found in code when several rows may list one mark. Main statement: a row is
found by a mark exactly when no later row lists the same mark and the mark is not a single operation; so
a catalog is searched completely when no two of its rows share a mark and no sequence has one operation.
-/

namespace ProxyCensus

open Evm (Instruction)

namespace Hex

/-- A marker and so many digits in either case. -/
def Numeral (width : Nat) (s : String) : Prop :=
  ∃ digits : List Char, s = String.ofList ('0' :: 'x' :: digits) ∧ digits.length = width ∧
    ∀ c ∈ digits, isDigit c = true

/-- A numeral is spelled by bytes exactly when its lower-case form is their text. -/
theorem Numeral.spells_iff {width : Nat} {s : String} (h : Numeral width s) (bytes : List UInt8) :
    Spells bytes s ↔ Text.lower s = String.ofList ('0' :: 'x' :: encode bytes) := by
  obtain ⟨digits, rfl, -, hdigits⟩ := h
  have hplain : ∀ c ∈ '0' :: 'x' :: digits, c.toNat < 128 ∧ Text.isBlank c = false := by
    intro c hc
    rcases List.mem_cons.1 hc with rfl | hc
    · decide
    · rcases List.mem_cons.1 hc with rfl | hc
      · decide
      · obtain ⟨n, hn⟩ := Option.isSome_iff_exists.1 (hdigits c hc)
        exact ⟨value?_ascii hn, not_isBlank_of_value? hn⟩
  have hlower : Text.lower (String.ofList ('0' :: 'x' :: digits)) =
      String.ofList ('0' :: 'x' :: digits.map Char.toLower) := by
    rw [Text.lower, String.toList_ofList, Text.lowerFrom_of_ascii [] fun c hc => (hplain c hc).1]
    rfl
  have hclean : clean (String.ofList ('0' :: 'x' :: digits)) = digits := by
    rw [clean, String.toList_ofList, ← List.append_nil ('0' :: 'x' :: digits),
      ← List.nil_append (_ ++ []),
      ← List.append_assoc, Text.trimBy_surrounded (by simp) (fun c hc => (hplain c hc).2) (by simp)]
    rfl
  rw [hlower, String.ofList_inj, List.cons_inj_right, List.cons_inj_right]
  constructor
  · intro h
    rw [← h.toLower_clean, hclean]
  · intro h
    have hspells : Spells bytes (String.ofList ([] ++ (['0', 'x'] ++ digits) ++ [])) :=
      .intro (by simp) (by simp) h (by simp)
    rwa [List.append_nil, List.nil_append] at hspells

end Hex

/-- What marks a pattern in instructions: a pushed word, a pushed selector, or operations in a row. -/
inductive Signature where
  | word (text : String)
  | selector (text : String)
  | sequence (names : List String)

namespace Signature

/-- A signature as it is compared with others: its text in lower case. -/
def key : Signature → Signature
  | word s => word (Text.lower s)
  | selector s => selector (Text.lower s)
  | sequence names => sequence names

/-- A signature that can be in instructions. -/
def WellFormed : Signature → Prop
  | word s => Hex.Numeral 64 s
  | selector s => Hex.Numeral 8 s
  | sequence names => names ≠ []

/-- A signature is somewhere in instructions. -/
def OccursIn (is : List Instruction) : Signature → Prop
  | word s => ∃ i ∈ is, i.opcode = Evm.push32 ∧ Hex.Spells i.operand s
  | selector s => ∃ i ∈ is, i.opcode = Evm.push4 ∧ Hex.Spells i.operand s
  | sequence names => names <:+: is.map (·.name)

/-- A signature that is looked for. -/
def Tried : Signature → Prop
  | word _ => True
  | selector _ => True
  | sequence names => 2 ≤ names.length

/-- The text of a signature is pushed as it is compared, or its two or more operations stand in a row. -/
def SeenIn (is : List Instruction) : Signature → Prop
  | word s => ∃ i ∈ is, i.opcode = Evm.push32 ∧ i.pushed = s
  | selector s => ∃ i ∈ is, i.opcode = Evm.push4 ∧ i.pushed = s
  | sequence names => names <:+: is.map (·.name) ∧ 2 ≤ names.length

/-- A signature is seen where it occurs, unless it is not looked for. -/
theorem seenIn_key_iff {s : Signature} (h : s.WellFormed) (is : List Instruction) :
    s.key.SeenIn is ↔ s.OccursIn is ∧ s.Tried := by
  cases s with
  | word text =>
    have hpushed : ∀ i : Instruction, i.pushed = Text.lower text ↔ Hex.Spells i.operand text :=
      fun i => eq_comm.trans (h.spells_iff i.operand).symm
    simp only [key, SeenIn, OccursIn, Tried, hpushed, and_true]
  | selector text =>
    have hpushed : ∀ i : Instruction, i.pushed = Text.lower text ↔ Hex.Spells i.operand text :=
      fun i => eq_comm.trans (h.spells_iff i.operand).symm
    simp only [key, SeenIn, OccursIn, Tried, hpushed, and_true]
  | sequence names => exact Iff.rfl

end Signature

/-- The signatures that a row lists. -/
def Definition.signatures (d : Definition) : List Signature :=
  d.words.map .word ++ d.selectors.map .selector ++ d.sequences.map .sequence

namespace Detection

variable {catalog : List Definition} {d : Definition}

/-- A row owns a mark when it lists it and no later row does. -/
theorem owner?_eq_some_iff_last {lists : Definition → Bool} :
    owner? catalog lists = some d ↔ ∃ before after, catalog = before ++ d :: after ∧ lists d = true ∧
      ∀ e ∈ after, lists e = false := by
  unfold owner?
  rw [List.find?_eq_some_iff_append]
  constructor
  · rintro ⟨hd, after, before, hcatalog, hlater⟩
    refine ⟨before.reverse, after.reverse, ?_, hd, fun e he => ?_⟩
    · rw [← List.reverse_reverse catalog, hcatalog]
      simp
    · simpa using hlater e (List.mem_reverse.1 he)
  · rintro ⟨before, after, rfl, hd, hlater⟩
    refine ⟨hd, after.reverse, before.reverse, by simp, fun e he => ?_⟩
    simpa using hlater e (List.mem_reverse.1 he)

/-- No row behind a row lists a signature that is compared like the given one. -/
def Owns (catalog : List Definition) (d : Definition) (s : Signature) : Prop :=
  ∃ before after, catalog = before ++ d :: after ∧
    ∀ e ∈ after, ∀ t ∈ e.signatures, t.key ≠ s.key

/-- The row that owns what a signature is compared as. -/
theorem owner?_iff_owns {lists : Definition → Bool} {k : Signature}
    (h : ∀ d, lists d = true ↔ ∃ s ∈ d.signatures, s.key = k) :
    owner? catalog lists = some d ↔ ∃ s ∈ d.signatures, s.key = k ∧ Owns catalog d s := by
  have hnot : ∀ e, lists e = false ↔ ∀ t ∈ e.signatures, t.key ≠ k := by
    intro e
    rw [← Bool.not_eq_true, h]
    simp
  rw [owner?_eq_some_iff_last]
  constructor
  · rintro ⟨before, after, hcatalog, hd, hlater⟩
    obtain ⟨s, hs, rfl⟩ := (h d).1 hd
    exact ⟨s, hs, rfl, before, after, hcatalog, fun e he => (hnot e).1 (hlater e he)⟩
  · rintro ⟨s, hs, rfl, before, after, hcatalog, hlater⟩
    exact ⟨before, after, hcatalog, (h d).2 ⟨s, hs, rfl⟩, fun e he => (hnot e).2 (hlater e he)⟩

theorem wordOwner?_iff_owns {text : String} :
    wordOwner? catalog text = some d ↔ ∃ s ∈ d.signatures, s.key = .word text ∧ Owns catalog d s :=
  owner?_iff_owns fun d => by simp [Definition.signatures, Signature.key, or_and_right, exists_or]

theorem selectorOwner?_iff_owns {text : String} :
    selectorOwner? catalog text = some d ↔
      ∃ s ∈ d.signatures, s.key = .selector text ∧ Owns catalog d s :=
  owner?_iff_owns fun d => by simp [Definition.signatures, Signature.key, or_and_right, exists_or]

theorem sequenceOwner?_iff_owns {names : List String} :
    sequenceOwner? catalog names = some d ↔
      ∃ s ∈ d.signatures, s.key = .sequence names ∧ Owns catalog d s :=
  owner?_iff_owns fun d => by simp [Definition.signatures, Signature.key, or_and_right, exists_or]

section Instructions

variable {p : Pattern} {i : Instruction} {is : List Instruction}

theorem exists_mem_operandMatches_iff : (∃ m ∈ operandMatches catalog i, m.pattern = p) ↔
    ∃ d, d.pattern = p ∧ (i.opcode = Evm.push32 ∧ wordOwner? catalog i.pushed = some d ∨
      i.opcode = Evm.push4 ∧ selectorOwner? catalog i.pushed = some d) := by
  have hne : Evm.push32 ≠ Evm.push4 := by decide
  have hmap : ∀ {owner : Option Definition} {word selector : Option String},
      (∃ m ∈ (owner.map (matchAt · i.offset word selector)).toList, m.pattern = p) ↔
        ∃ d, d.pattern = p ∧ owner = some d := by
    intro owner word selector
    cases owner <;> simp [and_comm]
  unfold operandMatches
  by_cases h₃₂ : i.opcode = Evm.push32
  · simp only [h₃₂, beq_self_eq_true, if_true, true_and, hne, false_and, or_false]
    exact hmap
  · by_cases h₄ : i.opcode = Evm.push4
    · simp only [h₄, beq_self_eq_true, if_true, true_and, hne.symm, beq_iff_eq, if_false,
        false_and, false_or]
      exact hmap
    · simp [h₃₂, h₄]

/-- Operations are looked up from the last two to all that are remembered. -/
theorem exists_mem_sequenceMatches_iff {recent : List Instruction} :
    (∃ m ∈ sequenceMatches catalog recent, m.pattern = p) ↔
      ∃ (last : List Instruction) (d : Definition), last.reverse <+: recent ∧ 2 ≤ last.length ∧
        sequenceOwner? catalog (last.map (·.name)) = some d ∧ d.pattern = p := by
  constructor
  · rintro ⟨m, hm, rfl⟩
    obtain ⟨n, hn, hm⟩ := List.mem_filterMap.1 hm
    have hn := List.mem_range.1 hn
    dsimp only at hm
    split at hm
    · rename_i first rest hlast
      obtain ⟨d, hd, rfl⟩ := Option.map_eq_some_iff.1 hm
      rw [hlast] at hd
      refine ⟨first :: rest, d, ?_, ?_, hd, (pattern_matchAt ..).symm⟩
      · rw [← hlast, List.reverse_reverse]
        exact List.take_prefix _ _
      · rw [← hlast, List.length_reverse, List.length_take]
        omega
    · cases hm
  · rintro ⟨last, d, hprefix, htwo, hd, rfl⟩
    have hlength := hprefix.length_le
    have htake := List.prefix_iff_eq_take.1 hprefix
    rw [List.length_reverse] at hlength htake
    refine ⟨matchAt d (last.head (List.ne_nil_of_length_pos (by omega))).offset none none, ?_,
      pattern_matchAt ..⟩
    refine List.mem_filterMap.2 ⟨last.length - 2, List.mem_range.2 (by omega), ?_⟩
    have hlast : (recent.take (last.length - 2 + 2)).reverse = last := by
      rw [Nat.sub_add_cancel htwo, ← htake, List.reverse_reverse]
    dsimp only
    rw [hlast]
    cases last with
    | nil => cases htwo
    | cons first rest =>
      dsimp only
      rw [hd]
      rfl

theorem take_append_take {α : Type} (xs ys : List α) (n : Nat) :
    (xs ++ ys.take n).take n = (xs ++ ys).take n := by
  rw [List.take_append, List.take_append, List.take_take, Nat.min_eq_left (Nat.sub_le _ _)]

/-- Every instruction is looked at, and with it the operations that end there. -/
theorem exists_mem_instructionMatches_iff {longest : Nat} {passed : List Instruction} :
    (∃ m ∈ instructionMatches catalog longest passed is, m.pattern = p) ↔
      (∃ i ∈ is, ∃ m ∈ operandMatches catalog i, m.pattern = p) ∨
        ∃ before i after, is = before ++ i :: after ∧
          ∃ m ∈ sequenceMatches catalog ((i :: before.reverse ++ passed).take longest),
            m.pattern = p := by
  induction is generalizing passed with
  | nil => simp [instructionMatches]
  | cons j rest ih =>
    have hsplit : (∃ before i after, j :: rest = before ++ i :: after ∧
        ∃ m ∈ sequenceMatches catalog ((i :: before.reverse ++ passed).take longest), m.pattern = p) ↔
        (∃ m ∈ sequenceMatches catalog ((j :: passed).take longest), m.pattern = p) ∨
        ∃ before i after, rest = before ++ i :: after ∧ ∃ m ∈ sequenceMatches catalog
          ((i :: before.reverse ++ (j :: passed).take longest).take longest), m.pattern = p := by
      simp only [take_append_take]
      constructor
      · rintro ⟨before, i, after, heq, hfound⟩
        cases before with
        | nil =>
          obtain ⟨rfl, rfl⟩ := List.cons.inj heq
          exact .inl hfound
        | cons k before =>
          obtain ⟨rfl, rfl⟩ := List.cons.inj heq
          exact .inr ⟨before, i, after, rfl, by simpa using hfound⟩
      · rintro (hfound | ⟨before, i, after, rfl, hfound⟩)
        · exact ⟨[], j, rest, rfl, hfound⟩
        · exact ⟨j :: before, i, after, rfl, by simpa using hfound⟩
    rw [hsplit]
    simp only [instructionMatches, List.mem_append, or_and_right, exists_or, List.exists_mem_cons_iff, ih]
    exact or_or_or_comm

theorem length_le_longestSequence {names : List String}
    (h : ∃ d ∈ catalog, names ∈ d.sequences) : names.length ≤ longestSequence catalog := by
  obtain ⟨d, hd, hnames⟩ := h
  have hmem : names.length ∈ catalog.flatMap fun d => d.sequences.map List.length :=
    List.mem_flatMap.2 ⟨d, hd, List.mem_map_of_mem hnames⟩
  rw [longestSequence, List.foldl_max]
  exact (List.le_max?_getD_of_mem hmem).trans (Nat.le_max_right _ _)

theorem length_le_of_sequenceOwner? {names : List String} (h : sequenceOwner? catalog names = some d) :
    names.length ≤ longestSequence catalog := by
  obtain ⟨before, after, rfl, hd, -⟩ := owner?_eq_some_iff_last.1 h
  exact length_le_longestSequence ⟨d, by simp, by simpa using hd⟩

/-- In some instructions every two or more operations in a row are looked up. -/
theorem exists_mem_windows_iff :
    (∃ before i after, is = before ++ i :: after ∧ ∃ m ∈ sequenceMatches catalog
        ((i :: before.reverse ++ []).take (longestSequence catalog)), m.pattern = p) ↔
      ∃ names d, names <:+: is.map (·.name) ∧ 2 ≤ names.length ∧
        sequenceOwner? catalog names = some d ∧ d.pattern = p := by
  simp only [exists_mem_sequenceMatches_iff, List.append_nil]
  constructor
  · rintro ⟨before, i, after, rfl, last, d, hlast, htwo, hd, hp⟩
    have hsuffix : last <:+ before ++ [i] := by
      rw [← List.reverse_prefix, List.reverse_append]
      exact hlast.trans (List.take_prefix _ _)
    have hinfix : last <:+: before ++ i :: after := by
      rw [List.append_cons]
      exact hsuffix.isInfix.trans (List.prefix_append _ _).isInfix
    exact ⟨_, d, hinfix.map _, by rwa [List.length_map], hd, hp⟩
  · rintro ⟨names, d, hnames, htwo, hd, hp⟩
    obtain ⟨last, ⟨front, after, rfl⟩, rfl⟩ := List.infix_map_iff.1 hnames
    have hlongest := length_le_of_sequenceOwner? hd
    rw [List.length_map] at htwo hlongest
    obtain ⟨init, i, rfl⟩ :=
      (List.eq_nil_or_concat' last).resolve_left (List.ne_nil_of_length_pos (by omega))
    refine ⟨front ++ init, i, after, by simp, init ++ [i], d, ?_, htwo, hd, hp⟩
    rw [List.prefix_take_iff, List.length_reverse]
    refine ⟨?_, hlongest⟩
    rw [List.reverse_append, List.reverse_append]
    exact ⟨front.reverse, rfl⟩

/-- What the instructions show is found in the name of the rows that own it. -/
theorem exists_mem_instructions_iff :
    (∃ m ∈ instructionMatches catalog (longestSequence catalog) [] is, m.pattern = p) ↔
      ∃ d, d.pattern = p ∧ ∃ s ∈ d.signatures, s.key.SeenIn is ∧ Owns catalog d s := by
  rw [exists_mem_instructionMatches_iff, exists_mem_windows_iff]
  simp only [exists_mem_operandMatches_iff, wordOwner?_iff_owns, selectorOwner?_iff_owns,
    sequenceOwner?_iff_owns]
  constructor
  · rintro (⟨i, hi, d, hp, ⟨hop, s, hs, hkey, howns⟩ | ⟨hop, s, hs, hkey, howns⟩⟩ |
      ⟨names, d, hnames, htwo, ⟨s, hs, hkey, howns⟩, hp⟩)
    · exact ⟨d, hp, s, hs, hkey ▸ ⟨i, hi, hop, rfl⟩, howns⟩
    · exact ⟨d, hp, s, hs, hkey ▸ ⟨i, hi, hop, rfl⟩, howns⟩
    · exact ⟨d, hp, s, hs, hkey ▸ ⟨hnames, htwo⟩, howns⟩
  · rintro ⟨d, hp, s, hs, hseen, howns⟩
    cases hkey : s.key with
    | word text =>
      rw [hkey] at hseen
      obtain ⟨i, hi, hop, rfl⟩ := hseen
      exact .inl ⟨i, hi, d, hp, .inl ⟨hop, s, hs, hkey, howns⟩⟩
    | selector text =>
      rw [hkey] at hseen
      obtain ⟨i, hi, hop, rfl⟩ := hseen
      exact .inl ⟨i, hi, d, hp, .inr ⟨hop, s, hs, hkey, howns⟩⟩
    | sequence names =>
      rw [hkey] at hseen
      exact .inr ⟨names, d, hseen.1, hseen.2, ⟨s, hs, hkey, howns⟩, hp⟩

end Instructions

section Templates

/-- The texts of a template are hexadecimal. -/
def Readable (t : Template) : Prop :=
  (∃ front, templateBytes t.front = .ok front) ∧ ∃ back, templateBytes t.back = .ok back

/-- Code has the shape of a template of a row. -/
def Fits (d : Definition) (code : List UInt8) : Prop :=
  ∃ t ∈ d.templates, ∃ address, templateAddress? t code = .ok (some address)

theorem templateAddress?_returns {t : Template} (h : Readable t) (code : List UInt8) :
    ∃ found, templateAddress? t code = .ok found := by
  obtain ⟨⟨front, hfront⟩, back, hback⟩ := h
  unfold templateAddress?
  rw [hfront, hback]
  dsimp only [bind, Except.bind]
  split
  · exact ⟨none, rfl⟩
  · split
    · exact ⟨_, rfl⟩
    · exact ⟨none, rfl⟩

theorem cloneTarget?_returns {templates : List Template} (h : ∀ t ∈ templates, Readable t)
    (code : List UInt8) : ∃ found, cloneTarget? code templates = .ok found ∧
      (found.isSome = true ↔
        ∃ t ∈ templates, ∃ address, templateAddress? t code = .ok (some address)) := by
  induction templates with
  | nil => exact ⟨none, rfl, by simp⟩
  | cons t rest ih =>
    obtain ⟨ht, hrest⟩ := List.forall_mem_cons.1 h
    obtain ⟨found, hfound⟩ := templateAddress?_returns ht code
    obtain ⟨others, hothers, hiff⟩ := ih hrest
    unfold cloneTarget?
    rw [hfound]
    cases found with
    | some address => exact ⟨some address, rfl, by simp [hfound]⟩
    | none => exact ⟨others, hothers, by simp [hfound, hiff]⟩

theorem templateMatches_returns (h : ∀ d ∈ catalog, ∀ t ∈ d.templates, Readable t)
    (code : List UInt8) :
    ∃ clones, templateMatches code catalog = .ok clones ∧
      ∀ p, (∃ m ∈ clones, m.pattern = p) ↔ ∃ d ∈ catalog, d.pattern = p ∧ Fits d code := by
  induction catalog with
  | nil => exact ⟨[], rfl, by simp⟩
  | cons d rest ih =>
    obtain ⟨hd, hrest⟩ := List.forall_mem_cons.1 h
    obtain ⟨found, hfound, hfits⟩ := cloneTarget?_returns hd code
    obtain ⟨others, hothers, hiff⟩ := ih hrest
    have hd : Fits d code ↔ found.isSome = true := hfits.symm
    unfold templateMatches
    rw [hfound]
    cases found with
    | some address =>
      refine ⟨{ pattern := d.pattern, implementation := some address } :: others, ?_, fun p => ?_⟩
      · change (templateMatches code rest >>= fun others => pure (_ :: others)) = _
        rw [hothers]
        rfl
      · simp [hd, hiff]
    | none => exact ⟨others, hothers, fun p => by simp [hd, hiff]⟩

end Templates

/-- A catalog whose rows are about different patterns and whose marks can be in code. -/
structure WellFormed (catalog : List Definition) : Prop where
  patterns : (catalog.map (·.pattern)).Nodup
  signatures : ∀ d ∈ catalog, ∀ s ∈ d.signatures, s.WellFormed
  templates : ∀ d ∈ catalog, ∀ t ∈ d.templates, Readable t

theorem Owns.mem {s : Signature} (h : Owns catalog d s) : d ∈ catalog := by
  obtain ⟨before, after, rfl, -⟩ := h
  simp

/-- In code that delegates, a row of a catalog is found exactly when the code has the shape of one of its
templates, or one of its signatures occurs in the instructions that no later row lists and that is not a
single operation. So every row with a signature in the code is found when no two rows list the same
signature and no signature is a single operation. -/
theorem found_iff_owned (hcatalog : WellFormed catalog) {bytecode : String} {code : List UInt8}
    (hcode : codeBytes bytecode = .ok code)
    (hdelegates : ∃ i ∈ Evm.sweep code, i.opcode = Evm.delegateCall) :
    ∃ found, inText catalog bytecode = .ok found ∧
      (∀ d ∈ catalog, d.pattern ∈ found.map (·.pattern) ↔ Fits d code ∨
        ∃ s ∈ d.signatures, s.OccursIn (Evm.sweep code) ∧ s.Tried ∧ Owns catalog d s) ∧
      ((∀ d ∈ catalog, ∀ s ∈ d.signatures, s.Tried ∧ Owns catalog d s) →
        ∀ d ∈ catalog, (∃ s ∈ d.signatures, s.OccursIn (Evm.sweep code)) →
          d.pattern ∈ found.map (·.pattern)) := by
  obtain ⟨clones, hclones, hfits⟩ := templateMatches_returns hcatalog.templates code
  have hany : (Evm.sweep code).any (·.delegates) = true := by
    simpa [Evm.Instruction.delegates] using hdelegates
  have hall : allMatches catalog code =
      .ok (clones ++ instructionMatches catalog (longestSequence catalog) [] (Evm.sweep code)) := by
    unfold allMatches
    rw [hclones]
    change (if (Evm.sweep code).any (·.delegates) = true then _ else _) = _
    rw [if_pos hany]
    rfl
  have hfound : inText catalog bytecode = .ok (firstMatches
      (clones ++ instructionMatches catalog (longestSequence catalog) [] (Evm.sweep code))) := by
    unfold inText
    rw [hcode]
    change inCode catalog code = _
    rw [inCode_eq, hall]
    rfl
  have hiff : ∀ d ∈ catalog, d.pattern ∈ (firstMatches (clones ++
      instructionMatches catalog (longestSequence catalog) [] (Evm.sweep code))).map (·.pattern) ↔
      Fits d code ∨
        ∃ s ∈ d.signatures, s.OccursIn (Evm.sweep code) ∧ s.Tried ∧ Owns catalog d s := by
    intro d hd
    have hsame : ∀ e ∈ catalog, e.pattern = d.pattern → e = d := fun e he =>
      List.inj_on_of_nodup_map hcatalog.patterns he hd
    rw [mem_map_pattern_firstMatches]
    simp only [List.mem_append, or_and_right, exists_or, hfits, exists_mem_instructions_iff]
    refine or_congr ⟨?_, fun h => ⟨d, hd, rfl, h⟩⟩ ⟨?_, ?_⟩
    · rintro ⟨e, he, hpattern, h⟩
      exact hsame e he hpattern ▸ h
    · rintro ⟨e, hpattern, s, hs, hseen, howns⟩
      obtain rfl := hsame e howns.mem hpattern
      obtain ⟨hoccurs, htried⟩ := (Signature.seenIn_key_iff (hcatalog.signatures e hd s hs) _).1 hseen
      exact ⟨s, hs, hoccurs, htried, howns⟩
    · rintro ⟨s, hs, hoccurs, htried, howns⟩
      exact ⟨d, rfl, s, hs,
        (Signature.seenIn_key_iff (hcatalog.signatures d hd s hs) _).2 ⟨hoccurs, htried⟩, howns⟩
  refine ⟨_, hfound, hiff, fun hcomplete d hd hmarked => ?_⟩
  obtain ⟨s, hs, hoccurs⟩ := hmarked
  exact (hiff d hd).2 (.inr ⟨s, hs, hoccurs, hcomplete d hd s hs⟩)

/-- Of two rows that list one selector only the later one is found, and a single operation is not. -/
theorem found_iff_owned_of_shared :
    let catalog : List Definition := [
      { pattern := .eip1967, family := .fixedSlot, priority := 1, method := .storageSlot
        selectors := [Catalog.implementationSelector] },
      { pattern := .legacyUpgradeable, family := .accessor, priority := 2, method := .accessorCall
        selectors := [Catalog.implementationSelector] },
      { pattern := .sequenceWallet, family := .fixedSlot, priority := 3, method := .storageSlot
        sequences := [["ADDRESS"]] }]
    let bytecode := "0x30635c60da1bf4"
    let code : List UInt8 := [0x30, 0x63, 0x5c, 0x60, 0xda, 0x1b, 0xf4]
    codeBytes bytecode = .ok code ∧ WellFormed catalog ∧
      (∀ d ∈ catalog, ∃ s ∈ d.signatures, s.OccursIn (Evm.sweep code)) ∧
      ∃ found, inText catalog bytecode = .ok found ∧ .legacyUpgradeable ∈ found.map (·.pattern) ∧
        .eip1967 ∉ found.map (·.pattern) ∧ .sequenceWallet ∉ found.map (·.pattern) := by
  intro catalog bytecode code
  have hcode : codeBytes bytecode = .ok code := eq_ok_of_toOption (by decide +kernel)
  have hnumeral : Hex.Numeral 8 Catalog.implementationSelector :=
    ⟨"5c60da1b".toList, by decide +kernel, by decide, List.all_eq_true.1 (by decide)⟩
  have hselector : (Signature.selector Catalog.implementationSelector).OccursIn (Evm.sweep code) :=
    ⟨⟨1, Evm.push4, [0x5c, 0x60, 0xda, 0x1b]⟩, by decide +kernel, rfl,
      (hnumeral.spells_iff _).2 (by decide +kernel)⟩
  have hcatalog : WellFormed catalog := by
    refine ⟨by decide, ?_, by simp [catalog]⟩
    simp [catalog, Definition.signatures, Signature.WellFormed, hnumeral]
  have hoccur : ∀ d ∈ catalog, ∃ s ∈ d.signatures, s.OccursIn (Evm.sweep code) := by
    have hsequence : (Signature.sequence ["ADDRESS"]).OccursIn (Evm.sweep code) :=
      ⟨[], ["PUSH4", "DELEGATECALL"], by decide +kernel⟩
    simp [catalog, Definition.signatures, hselector, hsequence]
  obtain ⟨found, hfound, hiff, -⟩ := found_iff_owned hcatalog hcode
    ⟨⟨6, Evm.delegateCall, []⟩, by decide +kernel, rfl⟩
  have hlast : .legacyUpgradeable ∈ found.map (·.pattern) := by
    refine (hiff _ (List.mem_cons_of_mem _ List.mem_cons_self)).2 (.inr ⟨_, ?_, hselector, trivial, ?_⟩)
    · simp [Definition.signatures]
    · refine ⟨[_], [_], rfl, ?_⟩
      simp [Definition.signatures, Signature.key]
  have hone : (inText catalog bytecode).toOption.map (·.map (·.pattern)) = some [.legacyUpgradeable] := by
    decide +kernel
  rw [hfound] at hone
  obtain hone := Option.some.inj hone
  exact ⟨hcode, hcatalog, hoccur, found, hfound, hlast, by simp [hone], by simp [hone]⟩

end Detection

end ProxyCensus
