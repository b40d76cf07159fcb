import ProxyCensus.Proofs.Job.ScanRows

/-!
# The candidates of a scan

Which contracts a scan lists as candidates: those in which detection finds at least two patterns.
Main statement: after some rows that were timed in doubles the tally lists under every chain the
addresses of its candidates, in the order of the rows, and the sum of the counts of candidates is
their number.
-/

namespace ProxyCensus

open Decimal (Number)

/-- A tally lists the candidates `cs`, and no other contract. -/
structure ScanTally.Lists (t : ScanTally) (cs : List Classification) : Prop where
  total : t.counts.values.sum = cs.length
  nodup : t.candidates.keys.Nodup
  items : ∀ chain, t.candidates.items chain =
    (cs.filter fun c => toString c.chainId == chain).map (·.address)
  keys : ∀ chain ∈ t.candidates.keys, ∃ c ∈ cs, toString c.chainId = chain

namespace ScanTally

theorem lists_empty : Lists {} [] :=
  ⟨rfl, List.nodup_nil, fun _ => rfl, fun _ h => by cases h⟩

theorem Lists.record {t : ScanTally} {cs : List Classification} (h : t.Lists cs)
    (c : Classification) (duration : Number) :
    (t.record c duration).Lists (cs ++ [c].filter fun c => 1 < c.matchCount) := by
  unfold ScanTally.record ScanTally.recordCandidate
  by_cases hc : 1 < c.matchCount
  · rw [if_pos hc, List.filter_cons_of_pos (by simpa using hc), List.filter_nil]
    refine ⟨?_, ?_, fun chain => ?_, fun chain hchain => ?_⟩
    · rw [Ledger.sum_values_tally, h.total, List.length_append]
      rfl
    · exact Ledger.nodup_keys_update h.nodup _ _
    · rw [Ledger.items_append, h.items, List.filter_append, List.map_append]
      simp only [List.filter_cons, List.filter_nil, beq_iff_eq]
      split <;> rfl
    · have hmem : chain ∈ t.candidates.keys ∨ chain = toString c.chainId := by
        dsimp only [Ledger.append] at hchain
        rw [Ledger.keys_update] at hchain
        split at hchain
        · exact .inl hchain
        · rcases List.mem_append.1 hchain with hchain | hchain
          · exact .inl hchain
          · exact .inr (List.mem_singleton.1 hchain)
      rcases hmem with hmem | rfl
      · obtain ⟨c', hc', heq⟩ := h.keys chain hmem
        exact ⟨c', List.mem_append_left _ hc', heq⟩
      · exact ⟨c, List.mem_append_right _ List.mem_cons_self, rfl⟩
  · rw [if_neg hc, List.filter_cons_of_neg (by simpa using hc), List.filter_nil, List.append_nil]
    exact { h with }

end ScanTally

namespace Scan

def candidates (catalog : List Definition) (rows : List Row) : List Classification :=
  (rows.filterMap (detected? catalog)).filter fun c => 1 < c.matchCount

variable {catalog : List Definition} {stopwatch : Nat → Number}

theorem mem_candidates {rows : List Row} {c : Classification} :
    c ∈ candidates catalog rows ↔
      (∃ row ∈ rows, detected? catalog row = some c) ∧ 1 < c.matchCount := by
  simp [candidates]

theorem candidates_cons (row : Row) (rest : List Row) : candidates catalog (row :: rest) =
    candidates catalog [row] ++ candidates catalog rest := by
  unfold candidates
  rw [← List.filter_append, ← List.filterMap_append, List.singleton_append]

theorem Count.lists_add (htimed : ∀ n, ∃ x, stopwatch n = .real x) {count : Count}
    {cs : List Classification} (h : count.tally.Lists cs) (row : Row) :
    (count.add catalog stopwatch row).tally.Lists (cs ++ candidates catalog [row]) := by
  rcases @tally_add catalog stopwatch htimed count row with ⟨hrow, htally⟩ | ⟨c, x, hrow, htally⟩
  · simpa [candidates, hrow, htally] using h
  · simpa [candidates, hrow, htally] using h.record c (.real x)

/-- After some rows the tally lists the candidates among them. -/
theorem Count.lists_ofRows (htimed : ∀ n, ∃ x, stopwatch n = .real x) (rows : List Row) :
    ∀ {count : Count} {cs : List Classification}, count.tally.Lists cs →
      (count.ofRows catalog stopwatch rows).tally.Lists (cs ++ candidates catalog rows) := by
  induction rows with
  | nil =>
    intro count cs h
    rwa [candidates, List.filterMap_nil, List.filter_nil, List.append_nil]
  | cons row rest ih =>
    intro count cs h
    rw [candidates_cons, ← List.append_assoc]
    exact ih (Count.lists_add htimed h row)

end Scan

end ProxyCensus
