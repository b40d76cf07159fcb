import ProxyCensus.Proofs.Detection.Exact

/-!
# Code that goes on

What is found in code when more code stands behind it. The instructions of the code stay where they
are: an operand that was cut off may become whole, and what was the last instruction may become the
first of two that make a mark together, but neither comes before a mark that was there. Main statement:
whatever is appended, every match stays as it is, and so does the order of the matches.
-/

namespace ProxyCensus

open Evm (Instruction)

theorem Evm.sweepFrom_prefix (offset : Nat) (code more : List UInt8) :
    sweepFrom offset code <+: sweepFrom offset (code ++ more) := by
  fun_induction sweepFrom offset code with
  | case1 => exact List.nil_prefix
  | case2 => exact List.nil_prefix
  | case3 offset opcode rest width operand hwhole ih =>
    have hwidth : width ≤ rest.length := by
      have : operand.length = min width rest.length := List.length_take
      omega
    rw [List.cons_append, sweepFrom_cons (by rw [List.length_append]; omega),
      List.take_append_of_le_length hwidth, List.drop_append_of_le_length hwidth]
    exact List.prefix_cons_inj _ |>.2 ih

namespace Definition

theorem Marks.append {d : Definition} {is : List Instruction} (h : d.Marks is)
    (more : List Instruction) : d.Marks (is ++ more) := by
  cases is with
  | nil => exact h.elim
  | cons i rest =>
    refine h.imp_right ?_
    rintro ⟨s, hs, hprefix⟩
    exact ⟨s, hs, hprefix.trans ((List.prefix_append (i :: rest) more).map _)⟩

/-- Instructions that follow make no mark of a pair that is there already. -/
theorem marks_of_append {d : Definition} (hpairs : ∀ s ∈ d.sequences, s.length ≤ 2)
    {i j : Instruction} {rest more : List Instruction} (h : d.Marks (i :: j :: rest ++ more)) :
    d.Marks (i :: j :: rest) := by
  refine Or.imp_right ?_ h
  rintro ⟨s, hs, hprefix⟩
  have hpair := hpairs s hs
  have hpart := (List.prefix_append (i :: j :: rest) more).map (·.name)
  refine ⟨s, hs, List.prefix_of_prefix_length_le hprefix hpart ?_⟩
  simp only [List.length_map, List.length_cons]
  omega

theorem firstMark?_append {d : Definition} (hpairs : ∀ s ∈ d.sequences, s.length ≤ 2)
    {is : List Instruction} {i : Instruction} (h : d.firstMark? is = some i)
    (more : List Instruction) : d.firstMark? (is ++ more) = some i := by
  induction is with
  | nil => cases h
  | cons j rest ih =>
    rw [List.cons_append]
    unfold firstMark? at h ⊢
    by_cases hj : d.Marks (j :: rest)
    · rw [if_pos hj] at h
      rwa [if_pos (show d.Marks (j :: (rest ++ more)) from hj.append more)]
    · rw [if_neg hj] at h
      have hnext : ¬ d.Marks (j :: (rest ++ more)) := by
        cases rest with
        | nil => cases h
        | cons k rest => exact fun hm => hj (marks_of_append hpairs hm)
      rw [if_neg hnext]
      exact ih h

end Definition

namespace Detection

open Catalog (builtIn row)

theorem length_sequences_row (p : Pattern) : ∀ s ∈ (row p).sequences, s.length ≤ 2 := by
  cases p <;> simp [row, builtIn]

/-- The match by which the built-in catalog reports a pattern in code. -/
def reported? (code : List UInt8) (p : Pattern) : Option Match :=
  if p = .fixed then (cloneTargetBytes? code).map cloneMatch
  else if (Evm.sweep code).any (·.delegates) then
    ((row p).firstMark? (Evm.sweep code)).map (entry p)
  else none

/-- The patterns are reported one after the other. -/
theorem inCode_builtIn_eq (code : List UInt8) :
    inCode builtIn code = .ok (Pattern.all.filterMap (reported? code)) := by
  have hall := allMatches_builtIn code
  rw [inCode_builtIn code hall]
  exact congrArg (fun f => Except.ok (Pattern.all.filterMap f)) (funext (find?_allMatches hall))

structure Reports (code : List UInt8) (found : List Match) : Prop where
  written : inText builtIn (String.ofList (Hex.encode code)) = .ok found
  spelled : ∀ s, codeBytes s = .ok code → inText builtIn s = .ok found

theorem reports (code : List UInt8) : Reports code (Pattern.all.filterMap (reported? code)) := by
  have hspelled : ∀ s, codeBytes s = .ok code →
      inText builtIn s = .ok (Pattern.all.filterMap (reported? code)) := by
    intro s hs
    rw [← inCode_builtIn_eq, inText, hs]
    rfl
  exact ⟨hspelled _ (codeBytes_encode code), hspelled⟩

theorem IsClone.append {code target : List UInt8} (h : IsClone code target) (more : List UInt8) :
    IsClone (code ++ more) target := by
  obtain ⟨hlength, shape, hshape, hprefix⟩ := h
  exact ⟨hlength, shape, hshape, hprefix.trans (List.prefix_append _ _)⟩

theorem reported?_append {code : List UInt8} {p : Pattern} {m : Match}
    (h : reported? code p = some m) (more : List UInt8) : reported? (code ++ more) p = some m := by
  obtain ⟨later, hlater⟩ := Evm.sweepFrom_prefix 0 code more
  have hsweep : Evm.sweep (code ++ more) = Evm.sweep code ++ later := hlater.symm
  unfold reported? at h ⊢
  by_cases hp : p = .fixed
  · rw [if_pos hp] at h ⊢
    obtain ⟨target, htarget, rfl⟩ := Option.map_eq_some_iff.1 h
    have hclone := (cloneTargetBytes?_eq_some_iff.1 htarget).append more
    rw [cloneTargetBytes?_eq_some_iff.2 hclone]
    rfl
  · rw [if_neg hp] at h ⊢
    obtain ⟨hdelegates, h⟩ := Option.ite_none_right_eq_some.1 h
    obtain ⟨i, hi, rfl⟩ := Option.map_eq_some_iff.1 h
    rw [hsweep, List.any_append, hdelegates, Bool.true_or, if_pos rfl,
      Definition.firstMark?_append (length_sequences_row p) hi]
    rfl

theorem filterMap_sublist {α β : Type} {f g : α → Option β}
    (h : ∀ a b, f a = some b → g a = some b) (l : List α) :
    (l.filterMap f).Sublist (l.filterMap g) := by
  induction l with
  | nil => exact List.Sublist.refl _
  | cons a rest ih =>
    cases hf : f a with
    | some b =>
      rw [List.filterMap_cons_some hf, List.filterMap_cons_some (h a b hf)]
      exact ih.cons_cons b
    | none =>
      rw [List.filterMap_cons_none hf]
      cases hg : g a with
      | some b =>
        rw [List.filterMap_cons_some hg]
        exact ih.cons b
      | none => rwa [List.filterMap_cons_none hg]

/-- Whatever is appended to code, all that was found in it is found again, each match as it was and in
the same order. -/
theorem matches_kept_by_append (code more : List UInt8) :
    ∃ found longer, Reports code found ∧ Reports (code ++ more) longer ∧ found.Sublist longer :=
  ⟨_, _, reports code, reports (code ++ more),
    filterMap_sublist (fun _ _ h => reported?_append h more) Pattern.all⟩

end Detection

end ProxyCensus
