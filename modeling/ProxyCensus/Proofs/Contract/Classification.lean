import Mathlib.Data.List.Perm.Subperm
import ProxyCensus.Contract.Classification
import ProxyCensus.Proofs.Contract.Record
import ProxyCensus.Proofs.Detection.Exact

/-!
# Classifications by detection

What detection says of a contract, whatever the catalog. Main statement: the patterns of a
classification are listed in the order of all patterns, each at most once.
-/

namespace ProxyCensus

namespace Detection

/-- Whatever the catalog, matches are listed in the order of their patterns. -/
theorem pairwise_rank_inText {catalog : List Definition} {text : String} {found : List Match}
    (h : inText catalog text = .ok found) :
    found.Pairwise fun a b => a.pattern.rank < b.pattern.rank := by
  unfold inText at h
  cases hc : codeBytes text with
  | error e =>
    rw [hc] at h
    cases h
  | ok code =>
    rw [hc] at h
    change inCode catalog code = .ok found at h
    unfold inCode at h
    split at h
    · cases h
      exact List.Pairwise.nil
    · cases ha : allMatches catalog code with
      | error e =>
        rw [ha] at h
        cases h
      | ok all =>
        rw [ha] at h
        cases h
        exact pairwise_rank_firstMatches all

end Detection

namespace Kind

theorem ofPatterns_eq_nonProxy_iff {patterns : List Pattern} :
    ofPatterns patterns = .nonProxy ↔ patterns = [] := by
  unfold ofPatterns
  cases patterns with
  | nil => simp
  | cons p rest =>
    constructor
    · intro h
      split at h
      · contradiction
      · split at h
        · cases h
        · split at h <;> cases h
    · intro h
      cases h

theorem ofPatterns_eq_diamond_iff {patterns : List Pattern} :
    ofPatterns patterns = .diamond ↔ .diamond ∈ patterns := by
  unfold ofPatterns
  cases patterns with
  | nil => simp
  | cons p rest =>
    rw [← List.contains_iff_mem]
    cases hc : (p :: rest).contains .diamond with
    | true => simp
    | false =>
      constructor
      · intro h
        split at h
        · cases h
        · split at h
          · contradiction
          · split at h <;> cases h
      · intro h
        cases h

end Kind

theorem Pattern.hasHalf_name (p : Pattern) : Text.hasHalf p.name = false := by
  cases p <;> decide

namespace Classification

theorem hasHalf_labelOf (patterns : List Pattern) : Text.hasHalf (labelOf patterns) = false := by
  unfold labelOf
  induction patterns with
  | nil => decide
  | cons p rest ih =>
    cases rest with
    | nil =>
      rw [List.map_cons, List.map_nil, String.intercalate_singleton]
      exact p.hasHalf_name
    | cons q rest =>
      rw [List.map_cons, List.map_cons, String.intercalate_cons_cons, Text.hasHalf_append,
        Text.hasHalf_append, p.hasHalf_name]
      exact ih

variable {catalog : List Definition} {record : ContractRecord} {c : Classification}

theorem ofRecord_eq_ok_iff :
    ofRecord catalog record = .ok c ↔
      ∃ found, Detection.inText catalog record.bytecode = .ok found ∧ ofMatches record found = c := by
  unfold ofRecord
  cases Detection.inText catalog record.bytecode <;> simp [Except.map]

theorem pairwise_patterns (h : ofRecord catalog record = .ok c) :
    c.patterns.Pairwise fun p q => p.rank < q.rank := by
  obtain ⟨found, hfound, rfl⟩ := ofRecord_eq_ok_iff.1 h
  exact List.pairwise_map.2 (Detection.pairwise_rank_inText hfound)

theorem nodup_patterns (h : ofRecord catalog record = .ok c) : c.patterns.Nodup := by
  refine (pairwise_patterns h).imp ?_
  rintro p _ hlt rfl
  exact Nat.lt_irrefl _ hlt

theorem length_patterns_le (h : ofRecord catalog record = .ok c) :
    c.patterns.length ≤ Pattern.all.length :=
  ((nodup_patterns h).subperm fun p _ => Pattern.mem_all p).length_le

theorem address_of_ofRecord (h : ofRecord catalog record = .ok c) : c.address = record.address := by
  obtain ⟨found, -, rfl⟩ := ofRecord_eq_ok_iff.1 h
  rfl

theorem chainId_of_ofRecord (h : ofRecord catalog record = .ok c) : c.chainId = record.chainId := by
  obtain ⟨found, -, rfl⟩ := ofRecord_eq_ok_iff.1 h
  rfl

end Classification

end ProxyCensus
