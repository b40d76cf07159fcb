import ProxyCensus.Detection

/-!
# Marks in instructions

Where a row of a catalog is marked in a stream of instructions: by a word or a selector that is
pushed, or by operations that follow each other. Main statements: the search finds exactly the first
mark of a row, and in the instructions of some code the built-in rows are reported by the matches of
their first marks, whatever the marks of the other rows are.
-/

namespace ProxyCensus

open Evm (Instruction)

/-- The operand of an instruction as it is compared with the words and selectors of a catalog. -/
def Evm.Instruction.pushed (i : Instruction) : String :=
  String.ofList ('0' :: 'x' :: Hex.encode i.operand)

namespace Definition

def PushedBy (d : Definition) (i : Instruction) : Prop :=
  i.opcode = Evm.push32 ∧ i.pushed ∈ d.words ∨ i.opcode = Evm.push4 ∧ i.pushed ∈ d.selectors

instance (d : Definition) (i : Instruction) : Decidable (d.PushedBy i) :=
  inferInstanceAs (Decidable (_ ∨ _))

/-- A mark of a row starts with the first of some instructions. -/
def Marks (d : Definition) : List Instruction → Prop
  | [] => False
  | i :: rest => d.PushedBy i ∨ ∃ s ∈ d.sequences, s <+: (i :: rest).map (·.name)

instance (d : Definition) : DecidablePred d.Marks
  | [] => inferInstanceAs (Decidable False)
  | i :: rest =>
    inferInstanceAs (Decidable (d.PushedBy i ∨ ∃ s ∈ d.sequences, s <+: (i :: rest).map (·.name)))

/-- The first mark of a row in some instructions starts with the given one. -/
def FirstMark (d : Definition) (is : List Instruction) (i : Instruction) : Prop :=
  ∃ n, is[n]? = some i ∧ d.Marks (is.drop n) ∧ ∀ m < n, ¬ d.Marks (is.drop m)

/-- The instruction with which the first mark of a row starts. -/
def firstMark? (d : Definition) : List Instruction → Option Instruction
  | [] => none
  | i :: rest => if d.Marks (i :: rest) then some i else d.firstMark? rest

theorem firstMark?_eq_some_iff {d : Definition} {is : List Instruction} {i : Instruction} :
    d.firstMark? is = some i ↔ d.FirstMark is i := by
  induction is with
  | nil => simp [firstMark?, FirstMark]
  | cons j rest ih =>
    by_cases h : d.Marks (j :: rest)
    · simp only [firstMark?, h, if_true, Option.some.injEq]
      constructor
      · rintro rfl
        exact ⟨0, rfl, h, by simp⟩
      · rintro ⟨n, hn, -, hfirst⟩
        cases n with
        | zero => simpa using hn
        | succ n => exact absurd h (hfirst 0 (by omega))
    · simp only [firstMark?, h, if_false, ih]
      constructor
      · rintro ⟨n, hn, hm, hfirst⟩
        refine ⟨n + 1, by simpa using hn, by simpa using hm, ?_⟩
        intro m hlt
        cases m with
        | zero => exact h
        | succ m => exact hfirst m (by omega)
      · rintro ⟨n, hn, hm, hfirst⟩
        cases n with
        | zero => exact absurd hm h
        | succ n =>
          refine ⟨n, by simpa using hn, by simpa using hm, ?_⟩
          intro m hlt
          exact hfirst (m + 1) (by omega)

theorem FirstMark.mem {d : Definition} {is : List Instruction} {i : Instruction}
    (h : d.FirstMark is i) : i ∈ is := by
  obtain ⟨n, hn, -⟩ := h
  exact List.mem_of_getElem? hn

theorem marks_cons_of_sequences_nil {d : Definition} (h : d.sequences = []) (i : Instruction)
    (rest : List Instruction) : d.Marks (i :: rest) ↔ d.PushedBy i := by
  simp [Marks, h]

end Definition

namespace Detection

/-- A mark that at most one row lists belongs to the row that lists it. -/
theorem owner?_eq_some_iff {catalog : List Definition} {lists : Definition → Bool} {d : Definition}
    (h : catalog.Pairwise fun a b => lists a = true → lists b = false) :
    owner? catalog lists = some d ↔ d ∈ catalog ∧ lists d = true := by
  unfold owner?
  constructor
  · intro hd
    exact ⟨List.mem_reverse.1 (List.mem_of_find?_eq_some hd), List.find?_some hd⟩
  · rintro ⟨hmem, hd⟩
    obtain ⟨before, after, rfl⟩ := List.append_of_mem hmem
    rw [List.find?_eq_some_iff_append]
    refine ⟨hd, after.reverse, before.reverse, by simp, ?_⟩
    intro a ha
    have hp := (List.pairwise_append.1 h).2.1
    have := List.rel_of_pairwise_cons hp (List.mem_reverse.1 ha) hd
    simp [this]

end Detection

end ProxyCensus
