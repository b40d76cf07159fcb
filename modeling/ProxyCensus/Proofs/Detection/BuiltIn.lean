import ProxyCensus.Proofs.Detection.Marks

/-!
# The built-in rows in instructions

What the built-in catalog finds in a stream of instructions. No two of its rows share a mark, so each
mark belongs to one pattern, and the first mark of a pattern decides how it is reported.
-/

namespace ProxyCensus.Detection

open Evm (Instruction)
open Catalog (builtIn row)

/-- The match by which a pattern is reported whose first mark starts with an instruction. A beacon
is reported with its slot if the slot was pushed, and otherwise with the selector that was. -/
def entry (p : Pattern) (i : Instruction) : Match :=
  if p = .eip1967Beacon then
    if i.opcode = Evm.push32 then
      { pattern := p, offset := i.offset, slot := some Catalog.beaconSlot }
    else { pattern := p, offset := i.offset, selector := some Catalog.beaconSelector }
  else { pattern := p, offset := i.offset, slot := (row p).slot, selector := (row p).accessor }

@[simp] theorem pattern_entry (p : Pattern) (i : Instruction) : (entry p i).pattern = p := by
  unfold entry
  split
  · split <;> rfl
  · rfl

theorem builtIn_eq_map : builtIn = Pattern.all.map row := rfl

theorem mem_builtIn_iff {d : Definition} : d ∈ builtIn ↔ ∃ p, d = row p := by
  simp [builtIn_eq_map, Pattern.mem_all, eq_comm]

def hexText (width n : Nat) : String :=
  String.ofList ('0' :: 'x' :: Hex.ofNat width n)

theorem mem_ofNat {width n : Nat} {c : Char} (h : c ∈ Hex.ofNat width n) :
    ∃ k < 16, c = Hex.digit k := by
  induction width generalizing n with
  | zero => simp [Hex.ofNat] at h
  | succ width ih =>
    rcases List.mem_append.1 h with h | h
    · exact ih h
    · exact ⟨n % 16, Nat.mod_lt _ (by omega), List.mem_singleton.1 h⟩

theorem lower_hexText (width n : Nat) : Text.lower (hexText width n) = hexText width n := by
  have small : ∀ c ∈ '0' :: 'x' :: Hex.ofNat width n, c.toNat < 128 ∧ c.toLower = c := by
    intro c hc
    simp only [List.mem_cons] at hc
    rcases hc with rfl | rfl | hc
    · decide
    · decide
    · obtain ⟨k, hk, rfl⟩ := mem_ofNat hc
      have digits : ∀ k : Fin 16, (Hex.digit k).toNat < 128 ∧ (Hex.digit k).toLower = Hex.digit k := by
        decide
      exact digits ⟨k, hk⟩
  rw [hexText, Text.lower, String.toList_ofList, Text.lowerFrom_of_ascii [] fun c hc => (small c hc).1]
  exact congrArg String.ofList
    ((List.map_congr_left fun c hc => (small c hc).2).trans (List.map_id _))

theorem words_builtIn (p : Pattern) : ∀ w ∈ (row p).words, ∃ n, w = hexText 64 n := by
  cases p <;> simp only [row, builtIn, List.getElem_cons_zero, List.getElem_cons_succ,
    List.mem_cons, List.not_mem_nil, or_false, forall_eq_or_imp, forall_eq, false_implies,
    implies_true]
  · exact ⟨0x360894a13ba1a3210667c828492db98dca3e2076cc3735a920a3ca505d382bbc, rfl⟩
  · exact ⟨0x7050c9e0f4ca769c69bd3a8ef740bc37934f8e2c036e5a723fd8ee048ed3f8c3, rfl⟩
  · exact ⟨0xc5f16f0fcc639fa48a6947836d9850f504798523bf8c9a3a87d5876cf622bcf7, rfl⟩
  · exact ⟨0xa619486e00000000000000000000000000000000000000000000000000000000, rfl⟩
  · exact ⟨0xa3f0ad74e5423aebfd80d3ef4346578335a9a72aeaee59ff6cb3582b35133d50, rfl⟩
  · exact ⟨⟨0xc8fcad8db84d3cc18b4c41d551ea0ee66dd599cde068d998e57d5e09332c131b, rfl⟩,
      ⟨0xc8fcad8db84d3cc18b4c41d551ea0ee66dd599cde068d998e57d5e09332c131c, rfl⟩⟩

theorem selectors_builtIn (p : Pattern) : ∀ w ∈ (row p).selectors, ∃ n, w = hexText 8 n := by
  cases p <;> simp only [row, builtIn, List.getElem_cons_zero, List.getElem_cons_succ,
    List.mem_cons, List.not_mem_nil, or_false, forall_eq_or_imp, forall_eq, false_implies,
    implies_true]
  · exact ⟨0x5c60da1b, rfl⟩
  · exact ⟨0x59659e90, rfl⟩
  · exact ⟨⟨0xcdffacc6, rfl⟩, ⟨0x52ef6b2c, rfl⟩, ⟨0x7a0ed627, rfl⟩⟩

theorem any_lower_iff {texts : List String} (h : ∀ w ∈ texts, Text.lower w = w) (s : String) :
    (texts.any fun w => Text.lower w == s) = true ↔ s ∈ texts := by
  simp only [List.any_eq_true, beq_iff_eq]
  constructor
  · rintro ⟨w, hw, rfl⟩
    exact (h w hw).symm ▸ hw
  · intro hs
    exact ⟨s, hs, h s hs⟩

/-- Texts in lower case that no two rows share belong to the row that lists them. -/
theorem owner?_builtIn_iff (texts : Definition → List String)
    {width : Nat} (hex : ∀ p, ∀ w ∈ texts (row p), ∃ n, w = hexText width n)
    (disjoint : builtIn.Pairwise fun a b => ∀ w ∈ texts a, w ∉ texts b) {s : String}
    {d : Definition} :
    owner? builtIn (fun d => (texts d).any (Text.lower · == s)) = some d ↔
      d ∈ builtIn ∧ s ∈ texts d := by
  have lists : ∀ d ∈ builtIn, ((texts d).any (Text.lower · == s)) = true ↔ s ∈ texts d := by
    intro d hd
    obtain ⟨p, rfl⟩ := mem_builtIn_iff.1 hd
    refine any_lower_iff (fun w hw => ?_) s
    obtain ⟨n, rfl⟩ := hex p w hw
    exact lower_hexText width n
  rw [owner?_eq_some_iff]
  · exact and_congr_right (lists d)
  · apply disjoint.imp_of_mem
    intro a b ha hb hab hs
    have hn : s ∉ texts b := hab s ((lists a ha).1 hs)
    rwa [← lists b hb, Bool.not_eq_true] at hn

theorem wordOwner?_builtIn_iff {s : String} {d : Definition} :
    wordOwner? builtIn s = some d ↔ d ∈ builtIn ∧ s ∈ d.words :=
  owner?_builtIn_iff Definition.words words_builtIn (by simp [builtIn]; decide)

theorem selectorOwner?_builtIn_iff {s : String} {d : Definition} :
    selectorOwner? builtIn s = some d ↔ d ∈ builtIn ∧ s ∈ d.selectors :=
  owner?_builtIn_iff Definition.selectors selectors_builtIn (by simp [builtIn]; decide)

theorem find?_owner {o : Option Definition} {texts : Definition → List String} {s : String}
    (owner : ∀ {d}, o = some d ↔ d ∈ builtIn ∧ s ∈ texts d) {f : Definition → Match}
    (hf : ∀ d, (f d).pattern = d.pattern) (p : Pattern) :
    (o.map f).toList.find? (·.pattern == p) =
      if s ∈ texts (row p) then some (f (row p)) else none := by
  by_cases hs : s ∈ texts (row p)
  · simp [owner.2 ⟨Catalog.row_mem p, hs⟩, hs, hf]
  · cases ho : o with
    | none => simp [hs]
    | some d =>
      obtain ⟨hd, hsd⟩ := owner.1 ho
      obtain ⟨q, rfl⟩ := mem_builtIn_iff.1 hd
      have hq : q ≠ p := by rintro rfl; exact hs hsd
      simp [hs, hf, hq]

@[simp] theorem pattern_matchAt (d : Definition) (offset : Nat) (word selector : Option String) :
    (matchAt d offset word selector).pattern = d.pattern := by
  unfold matchAt
  split
  · split <;> rfl
  · rfl
  · rfl
  · rfl
  · rfl

theorem find?_operandMatches (p : Pattern) (i : Instruction) :
    (operandMatches builtIn i).find? (·.pattern == p) =
      if (row p).PushedBy i then some (entry p i) else none := by
  have hne : Evm.push32 ≠ Evm.push4 := by decide
  by_cases h₃₂ : i.opcode = Evm.push32
  · have hp : (row p).PushedBy i ↔ i.pushed ∈ (row p).words := by
      simp [Definition.PushedBy, h₃₂, hne]
    have hm : operandMatches builtIn i =
        ((wordOwner? builtIn i.pushed).map (matchAt · i.offset (some i.pushed) none)).toList := by
      simp [operandMatches, h₃₂, Evm.Instruction.pushed]
    rw [hm, find?_owner wordOwner?_builtIn_iff (fun d => pattern_matchAt d ..)]
    simp only [hp]
    refine ite_congr rfl (fun hs => ?_) fun _ => rfl
    cases p <;> simp_all [entry, matchAt, row, builtIn]
  · by_cases h₄ : i.opcode = Evm.push4
    · have hp : (row p).PushedBy i ↔ i.pushed ∈ (row p).selectors := by
        simp [Definition.PushedBy, h₄, hne.symm]
      have hm : operandMatches builtIn i =
          ((selectorOwner? builtIn i.pushed).map
            (matchAt · i.offset none (some i.pushed))).toList := by
        simp [operandMatches, h₄, hne.symm, Evm.Instruction.pushed]
      rw [hm, find?_owner selectorOwner?_builtIn_iff (fun d => pattern_matchAt d ..)]
      simp only [hp]
      refine ite_congr rfl (fun hs => ?_) fun _ => rfl
      cases p <;> simp_all [entry, matchAt, row, builtIn]
    · simp [operandMatches, Definition.PushedBy, h₃₂, h₄]

theorem sequences_row (p : Pattern) :
    (row p).sequences = if p = .sequenceWallet then [["ADDRESS", "SLOAD"]] else [] := by
  cases p <;> rfl

theorem sequenceOwner?_builtIn (names : List String) :
    sequenceOwner? builtIn names =
      if names = ["ADDRESS", "SLOAD"] then some (row .sequenceWallet) else none := by
  by_cases h : names = ["ADDRESS", "SLOAD"]
  · subst h
    rfl
  · simp [sequenceOwner?, owner?, builtIn, h]

/-- Only the pattern of the wallet is found by operations that follow each other. -/
theorem pattern_of_mem_sequenceMatches {recent : List Instruction} {m : Match}
    (h : m ∈ sequenceMatches builtIn recent) : m.pattern = .sequenceWallet := by
  simp only [sequenceMatches, List.mem_filterMap] at h
  obtain ⟨n, -, hm⟩ := h
  split at hm
  · rw [sequenceOwner?_builtIn, Option.map_eq_some_iff] at hm
    obtain ⟨d, hd, rfl⟩ := hm
    split at hd
    · cases hd
      simp
    · cases hd
  · cases hm

/-- The wallet's pattern is found where one instruction asks for the own address and the next one
reads the slot of that key. -/
theorem sequenceMatches_pair (j i : Instruction) :
    sequenceMatches builtIn [i, j] =
      if j.name = "ADDRESS" ∧ i.name = "SLOAD" then [entry .sequenceWallet j] else [] := by
  have hm : matchAt (row .sequenceWallet) j.offset none none = entry .sequenceWallet j := rfl
  have hr : List.range 1 = [0] := rfl
  by_cases h : j.name = "ADDRESS" ∧ i.name = "SLOAD"
  · simp [sequenceMatches, sequenceOwner?_builtIn, hr, h, hm]
  · simp [sequenceMatches, sequenceOwner?_builtIn, h]

/-- A pattern other than the wallet's is found at the first operand that its row lists. -/
theorem find?_instructionMatches {p : Pattern} (hp : p ≠ .sequenceWallet) (longest : Nat)
    (passed is : List Instruction) :
    (instructionMatches builtIn longest passed is).find? (·.pattern == p) =
      ((row p).firstMark? is).map (entry p) := by
  have hseq : (row p).sequences = [] := by simp [sequences_row, hp]
  induction is generalizing passed with
  | nil => rfl
  | cons i rest ih =>
    have hs : ∀ recent, (sequenceMatches builtIn recent).find? (·.pattern == p) = none := by
      intro recent
      rw [List.find?_eq_none]
      intro m hm
      simp [pattern_of_mem_sequenceMatches hm, hp.symm]
    simp only [instructionMatches, List.find?_append, find?_operandMatches, hs, ih,
      Definition.firstMark?, Definition.marks_cons_of_sequences_nil hseq]
    split <;> simp

theorem marks_sequenceWallet (j : Instruction) (rest : List Instruction) :
    (row .sequenceWallet).Marks (j :: rest) ↔
      j.name = "ADDRESS" ∧ ∃ i ∈ rest.head?, i.name = "SLOAD" := by
  cases rest <;> simp [Definition.Marks, Definition.PushedBy, row, builtIn, eq_comm]

/-- The wallet's pattern is found at the first pair of its operations, the one before the given
instructions included. -/
theorem find?_instructionMatches_sequenceWallet (passed is : List Instruction) :
    (instructionMatches builtIn 2 passed is).find? (·.pattern == .sequenceWallet) =
      ((row .sequenceWallet).firstMark? (passed.take 1 ++ is)).map (entry .sequenceWallet) := by
  have unpushed : ∀ i, ¬ (row .sequenceWallet).PushedBy i := by
    simp [Definition.PushedBy, row, builtIn]
  induction is generalizing passed with
  | nil =>
    cases passed with
    | nil => rfl
    | cons j t => simp [instructionMatches, Definition.firstMark?, marks_sequenceWallet]
  | cons i rest ih =>
    simp only [instructionMatches, List.find?_append, find?_operandMatches, unpushed, if_false,
      Option.none_or, ih]
    cases passed with
    | nil => rfl
    | cons j t =>
      simp only [List.take_succ_cons, List.take_zero, sequenceMatches_pair, List.cons_append,
        List.nil_append]
      by_cases h : j.name = "ADDRESS" ∧ i.name = "SLOAD"
      · simp [Definition.firstMark?, marks_sequenceWallet, h]
      · simp [Definition.firstMark?, marks_sequenceWallet, h]

/-- In the instructions of code every pattern is reported by its first mark. -/
theorem find?_instructionMatches_builtIn (p : Pattern) (is : List Instruction) :
    (instructionMatches builtIn 2 [] is).find? (·.pattern == p) =
      ((row p).firstMark? is).map (entry p) := by
  by_cases hp : p = .sequenceWallet
  · subst hp
    exact find?_instructionMatches_sequenceWallet [] is
  · exact find?_instructionMatches hp 2 [] is

end ProxyCensus.Detection
