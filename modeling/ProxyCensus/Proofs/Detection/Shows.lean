import ProxyCensus.Proofs.Contract.Classification
import ProxyCensus.Proofs.Detection.Exact

/-!
# The patterns that code shows

A pattern may leave several marks in the code of a contract. Main statements: whatever the catalog, the
patterns of a classification are those with some mark in the code; and in the built-in catalog these are
the clone, when the code has its shape, and in code that delegates every pattern whose row marks it.
-/

namespace ProxyCensus

namespace Detection

open Catalog (builtIn row)

/-- Some mark of a pattern is found in a contract's code. -/
def Shows (catalog : List Definition) (bytecode : String) (p : Pattern) : Prop :=
  ∃ code all, codeBytes bytecode = .ok code ∧ allMatches catalog code = .ok all ∧
    ∃ m ∈ all, m.pattern = p

theorem shows_iff_of_ok {catalog : List Definition} {bytecode : String} {code : List UInt8}
    {all : List Match} (hcode : codeBytes bytecode = .ok code)
    (hall : allMatches catalog code = .ok all) (p : Pattern) :
    Shows catalog bytecode p ↔ all.any (·.pattern == p) = true := by
  simp [Shows, hcode, hall]

instance (catalog : List Definition) (bytecode : String) : DecidablePred (Shows catalog bytecode) :=
  fun p =>
    match hcode : codeBytes bytecode with
    | .error _ => .isFalse fun ⟨_, _, h, _⟩ => nomatch hcode.symm.trans h
    | .ok code =>
      match hall : allMatches catalog code with
      | .error _ => .isFalse fun ⟨_, _, h, h', _⟩ =>
        nomatch (Except.ok.inj (hcode.symm.trans h) ▸ hall).symm.trans h'
      | .ok _ => decidable_of_iff _ (shows_iff_of_ok hcode hall p).symm

theorem cloneTarget?_nil (templates : List Template) : cloneTarget? [] templates = .ok none := by
  induction templates with
  | nil => rfl
  | cons t rest ih =>
    have hshort : templateAddress? t [] = .ok none := by
      unfold templateAddress? Template.size
      rw [if_pos (by simp only [List.take_nil, List.length_nil]; omega)]
    unfold cloneTarget?
    rw [hshort]
    exact ih

theorem allMatches_nil (catalog : List Definition) : allMatches catalog [] = .ok [] := by
  have hclones : templateMatches [] catalog = .ok [] := by
    induction catalog with
    | nil => rfl
    | cons d rest ih =>
      unfold templateMatches
      rw [cloneTarget?_nil]
      exact ih
  unfold allMatches
  rw [hclones, show Evm.sweep [] = [] from Evm.sweepFrom_nil 0]
  rfl

theorem inCode_eq (catalog : List Definition) (code : List UInt8) :
    inCode catalog code = (allMatches catalog code).map firstMatches := by
  cases code with
  | nil => rw [allMatches_nil]; rfl
  | cons b rest => rfl

theorem mem_map_pattern_firstMatches (all : List Match) (p : Pattern) :
    p ∈ (firstMatches all).map (·.pattern) ↔ ∃ m ∈ all, m.pattern = p := by
  constructor
  · intro h
    obtain ⟨m, hm, rfl⟩ := List.mem_map.1 h
    exact ⟨m, List.mem_of_find?_eq_some (mem_firstMatches_iff.1 hm), rfl⟩
  · rintro ⟨m, hm, rfl⟩
    obtain ⟨first, hfirst⟩ : ∃ first, all.find? (·.pattern == m.pattern) = some first :=
      Option.isSome_iff_exists.1 (List.find?_isSome.2 ⟨m, hm, by simp⟩)
    have hsame : first.pattern = m.pattern := by simpa using List.find?_some hfirst
    exact List.mem_map.2 ⟨first, mem_firstMatches_iff.2 (hsame.symm ▸ hfirst), hsame⟩

theorem mem_map_pattern_inText {catalog : List Definition} {bytecode : String} {found : List Match}
    (h : inText catalog bytecode = .ok found) (p : Pattern) :
    p ∈ found.map (·.pattern) ↔ Shows catalog bytecode p := by
  unfold inText at h
  cases hcode : codeBytes bytecode with
  | error e =>
    rw [hcode] at h
    cases h
  | ok code =>
    rw [hcode] at h
    change inCode catalog code = .ok found at h
    rw [inCode_eq] at h
    cases hall : allMatches catalog code with
    | error e =>
      rw [hall] at h
      cases h
    | ok all =>
      rw [hall] at h
      obtain rfl := Except.ok.inj h
      rw [mem_map_pattern_firstMatches]
      simp [Shows, hcode, hall]

end Detection

theorem Definition.isSome_firstMark?_iff {d : Definition} {is : List Evm.Instruction} :
    (d.firstMark? is).isSome ↔ ∃ n, d.Marks (is.drop n) := by
  induction is with
  | nil => simp [firstMark?, Marks]
  | cons i rest ih =>
    unfold firstMark?
    by_cases h : d.Marks (i :: rest)
    · simp only [h, if_true, Option.isSome_some, true_iff]
      exact ⟨0, h⟩
    · rw [if_neg h, ih]
      constructor
      · rintro ⟨n, hn⟩
        exact ⟨n + 1, hn⟩
      · rintro ⟨n, hn⟩
        cases n with
        | zero => exact absurd hn h
        | succ n => exact ⟨n, hn⟩

namespace Detection

open Catalog (builtIn row)

/-- With the built-in catalog code shows a clone's pattern if it has the shape of one, and any other
pattern if the code delegates and the pattern's row marks it anywhere. -/
theorem shows_builtIn_iff {bytecode : String} {code : List UInt8} (hcode : codeBytes bytecode = .ok code)
    (p : Pattern) :
    Shows builtIn bytecode p ↔
      if p = .fixed then ∃ target, IsClone code target
      else (∃ i ∈ Evm.sweep code, i.opcode = Evm.delegateCall) ∧
        ∃ n, (row p).Marks ((Evm.sweep code).drop n) := by
  have hall := allMatches_builtIn code
  have hfind := find?_allMatches hall p
  rw [shows_iff_of_ok hcode hall, List.any_eq_true, ← List.find?_isSome, hfind]
  by_cases hp : p = .fixed
  · simp only [hp, if_true, Option.isSome_map, Option.isSome_iff_exists,
      cloneTargetBytes?_eq_some_iff]
  · have hdelegates : (Evm.sweep code).any (·.delegates) = true ↔
        ∃ i ∈ Evm.sweep code, i.opcode = Evm.delegateCall := by
      simp [Evm.Instruction.delegates]
    simp only [hp, if_false, ← hdelegates, ← Definition.isSome_firstMark?_iff]
    by_cases hd : (Evm.sweep code).any (·.delegates) = true
    · simp [hd]
    · simp [hd]

end Detection

namespace Classification

variable {catalog : List Definition} {record : ContractRecord} {c : Classification}

theorem mem_patterns_iff (h : ofRecord catalog record = .ok c) (p : Pattern) :
    p ∈ c.patterns ↔ Detection.Shows catalog record.bytecode p := by
  obtain ⟨found, hfound, rfl⟩ := ofRecord_eq_ok_iff.1 h
  exact Detection.mem_map_pattern_inText hfound p

theorem ofRecord_of_patterns {patterns : List Pattern}
    (h : (ofRecord catalog record).toOption.map (·.patterns) = some patterns) :
    ofRecord catalog record = .ok { chainId := record.chainId, address := record.address
                                    kind := Kind.ofPatterns patterns, patterns } := by
  obtain ⟨c, hc, rfl⟩ := Option.map_eq_some_iff.1 h
  have hc := eq_ok_of_toOption hc
  obtain ⟨found, -, rfl⟩ := ofRecord_eq_ok_iff.1 hc
  exact hc

/-- A classification lists a pattern once if the code shows it, and otherwise not at all. -/
theorem count_patterns (h : ofRecord catalog record = .ok c) (p : Pattern) :
    c.patterns.count p = if Detection.Shows catalog record.bytecode p then 1 else 0 := by
  rw [(nodup_patterns h).count]
  simp only [mem_patterns_iff h]

end Classification

end ProxyCensus
