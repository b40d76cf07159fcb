import Mathlib.Data.List.Induction
import ProxyCensus.Proofs.Detection.Shows
import ProxyCensus.Proofs.Tally.Balance
import ProxyCensus.Tally.Scan

/-!
# What the counts of a scan add up to

A contract that is counted raises up to four numbers, depending on whether it shows no pattern, one or
several. Main statement: whatever contracts are counted, the patterns are as many as the contracts with
one pattern and those of the candidates together; and of contracts that were searched, each pattern is
counted as often as there are contracts whose code shows it.
-/

namespace ProxyCensus

open Decimal (Number)

namespace Ledger

variable {κ : Type} [DecidableEq κ]

theorem count_foldl_tally (keys : List κ) (l : Ledger κ Nat) (key : κ) :
    (keys.foldl tally l).count key = l.count key + keys.count key := by
  unfold count
  rw [get?_foldl_tally]
  by_cases h : key ∈ keys
  · simp [h, count]
  · simp [h, List.count_eq_zero_of_not_mem h]

theorem sum_values_foldl_tally (keys : List κ) : ∀ l : Ledger κ Nat,
    (keys.foldl tally l).values.sum = l.values.sum + keys.length := by
  induction keys with
  | nil => exact fun _ => rfl
  | cons key rest ih =>
    intro l
    rw [List.foldl_cons, ih, sum_values_tally, List.length_cons]
    omega

/-- The counted numbers taken together, each as often as it was counted. -/
def total (l : Ledger Nat Nat) : Nat :=
  (l.entries.map fun e => e.1 * e.2).sum

theorem total_tally (l : Ledger Nat Nat) (n : Nat) : (l.tally n).total = l.total + n :=
  sum_map_updateEntries (fun e : Nat × Nat => e.1 * e.2) (Nat.mul_one n) fun v _ => Nat.mul_succ n v

end Ledger

namespace ScanTally

open Ledger

/-- How the numbers of a scan's tally hang together. -/
structure Conserved (t : ScanTally) : Prop where
  /-- Every contract was timed. -/
  timed : t.durations.size = t.analyzed
  /-- The candidates are listed one by one. -/
  listed : t.counts.values.sum = (t.candidates.values.map List.length).sum
  several : ∀ k ∈ t.counts.keys, 2 ≤ k
  proxies : t.counts.values.sum ≤ t.proxies
  /-- A proxy that is no candidate shows one pattern. -/
  shown : t.types.values.sum = (t.proxies - t.counts.values.sum) + t.counts.total

theorem conserved_empty : Conserved {} :=
  ⟨rfl, rfl, fun _ h => (List.not_mem_nil h).elim, Nat.le_refl 0, rfl⟩

theorem record_of_candidate {c : Classification} (h : 1 < c.matchCount) (t : ScanTally) (d : Number) :
    t.record c d = {
      analyzed := t.analyzed + 1
      proxies := t.proxies + 1
      types := c.patterns.foldl Ledger.tally t.types
      counts := t.counts.tally c.matchCount
      candidates := t.candidates.append (toString c.chainId) c.address
      durations := t.durations.push d } := by
  simp only [record, recordCandidate, if_pos h, if_pos (Nat.lt_of_succ_lt h)]

theorem record_of_other {c : Classification} (h : ¬1 < c.matchCount) (t : ScanTally) (d : Number) :
    t.record c d = { t with
      analyzed := t.analyzed + 1
      proxies := t.proxies + c.matchCount
      types := c.patterns.foldl Ledger.tally t.types
      durations := t.durations.push d } := by
  simp only [record, recordCandidate, if_neg h]
  split
  · rw [show c.matchCount = 1 by omega]
  · rw [show c.matchCount = 0 by omega]
    rfl

theorem Conserved.record {t : ScanTally} (h : t.Conserved) (c : Classification) (d : Number) :
    (t.record c d).Conserved := by
  obtain ⟨htimed, hlisted, hseveral, hproxies, hshown⟩ := h
  have hpatterns : (c.patterns.foldl tally t.types).values.sum = t.types.values.sum + c.matchCount :=
    sum_values_foldl_tally c.patterns t.types
  by_cases hc : 1 < c.matchCount
  · rw [record_of_candidate hc]
    have hcounts := sum_values_tally t.counts c.matchCount
    refine ⟨?_, ?_, ?_, ?_, ?_⟩ <;> dsimp only
    · rw [Array.size_push, htimed]
    · rw [hcounts, sum_lengths_append, hlisted]
    · intro k hk
      rw [tally, keys_update] at hk
      split at hk
      · exact hseveral k hk
      · rcases List.mem_append.1 hk with hk | hk
        · exact hseveral k hk
        · exact List.mem_singleton.1 hk ▸ hc
    · omega
    · rw [hpatterns, hcounts, total_tally]
      omega
  · rw [record_of_other hc]
    refine ⟨?_, hlisted, hseveral, ?_, ?_⟩ <;> dsimp only
    · rw [Array.size_push, htimed]
    · omega
    · rw [hpatterns]
      omega

def ofTimed (timed : List (Classification × Number)) : ScanTally :=
  timed.foldl (fun t e => t.record e.1 e.2) {}

theorem ofTimed_append_singleton (timed : List (Classification × Number)) (e : Classification × Number) :
    ofTimed (timed ++ [e]) = (ofTimed timed).record e.1 e.2 :=
  List.foldl_concat ..

theorem conserved_ofTimed (timed : List (Classification × Number)) : (ofTimed timed).Conserved := by
  induction timed using List.reverseRecOn with
  | nil => exact conserved_empty
  | append_singleton timed e ih => exact ofTimed_append_singleton timed e ▸ ih.record e.1 e.2

theorem durations_record (t : ScanTally) (c : Classification) (d : Number) :
    (t.record c d).durations = t.durations.push d := by
  unfold record recordCandidate
  split <;> rfl

theorem types_record (t : ScanTally) (c : Classification) (d : Number) :
    (t.record c d).types = c.patterns.foldl tally t.types := by
  unfold record recordCandidate
  split <;> rfl

theorem durations_ofTimed (timed : List (Classification × Number)) :
    (ofTimed timed).durations.toList = timed.map (·.2) := by
  induction timed using List.reverseRecOn with
  | nil => rfl
  | append_singleton timed e ih =>
    rw [ofTimed_append_singleton, durations_record, Array.toList_push, ih, List.map_append]
    rfl

/-- A pattern is counted as often as contracts list it. -/
theorem count_types_ofTimed (timed : List (Classification × Number)) (p : Pattern) :
    (ofTimed timed).types.count p = (timed.map (·.1.patterns.count p)).sum := by
  induction timed using List.reverseRecOn with
  | nil => rfl
  | append_singleton timed e ih =>
    rw [ofTimed_append_singleton, types_record, count_foldl_tally, ih, List.map_append, List.sum_append]
    rfl

/-- Contracts that were searched list a pattern as often as there are contracts whose code shows it. -/
theorem sum_count_patterns {catalog : List Definition} {contracts : List ContractRecord}
    {timed : List (Classification × Number)}
    (h : contracts.map (Classification.ofRecord catalog) = timed.map (.ok ·.1)) (p : Pattern) :
    (timed.map (·.1.patterns.count p)).sum =
      contracts.countP (Detection.Shows catalog ·.bytecode p) := by
  induction contracts generalizing timed with
  | nil =>
    obtain rfl := List.map_eq_nil_iff.1 h.symm
    rfl
  | cons record rest ih =>
    obtain ⟨e, timed, rfl, he, hrest⟩ := List.map_eq_cons_iff.1 h.symm
    rw [List.map_cons, List.sum_cons, ih hrest.symm, Classification.count_patterns he.symm,
      List.countP_cons, Nat.add_comm]
    simp only [decide_eq_true_eq]

/-- Whatever contracts a scan counts, and however long they took, its numbers fit together: every contract
was counted and timed, the candidates are counted by the number of their patterns, which is two or more,
and listed, and the patterns are as many as the other proxies and the patterns of the candidates. Of
contracts that were searched, each pattern is counted as often as code shows it. -/
theorem counts_add_up (timed : List (Classification × Number)) :
    let t := ofTimed timed
    t.analyzed = timed.length ∧ t.durations.toList = timed.map (·.2) ∧
    t.counts.values.sum = (t.candidates.values.map List.length).sum ∧
    (∀ k ∈ t.counts.keys, 2 ≤ k) ∧
    t.counts.values.sum ≤ t.proxies ∧
    t.types.values.sum = (t.proxies - t.counts.values.sum) + t.counts.total ∧
    ∀ (catalog : List Definition) (contracts : List ContractRecord),
      contracts.map (Classification.ofRecord catalog) = timed.map (.ok ·.1) →
      ∀ p, t.types.count p = contracts.countP (Detection.Shows catalog ·.bytecode p) := by
  have h := conserved_ofTimed timed
  have hdurations := durations_ofTimed timed
  refine ⟨?_, hdurations, h.listed, h.several, h.proxies, h.shown, fun catalog contracts hc p => ?_⟩
  · rw [← h.timed, ← Array.length_toList, hdurations, List.length_map]
  · rw [count_types_ofTimed, sum_count_patterns hc]

def threeContracts : List ContractRecord := [
  { chainId := 1, address := "0x0a", bytecode := "0x6001" },
  { chainId := 1, address := "0x0b", bytecode := "0x635c60da1bf4" },
  { chainId := 10, address := "0x0c", bytecode :=
    "0x7f360894a13ba1a3210667c828492db98dca3e2076cc3735a920a3ca505d382bbc635c60da1bf4" }]

def threeTimed : List (Classification × Number) := [
  ({ chainId := 1, address := "0x0a" }, .whole 3),
  ({ chainId := 1, address := "0x0b", kind := .singleProxy, patterns := [.legacyUpgradeable] }, .whole 1),
  ({ chainId := 10, address := "0x0c", kind := .multiProxy
     patterns := [.eip1967, .legacyUpgradeable] }, .whole 2)]

theorem three_contracts_add_up :
    let t := ofTimed threeTimed
    threeContracts.map (Classification.ofRecord Catalog.builtIn) = threeTimed.map (.ok ·.1) ∧
      threeContracts.countP (Detection.Shows Catalog.builtIn ·.bytecode .legacyUpgradeable) = 2 ∧
      t.types.count .legacyUpgradeable = 2 ∧
      t.types.values.sum = (t.proxies - t.counts.values.sum) + t.counts.total ∧ t.proxies = 2 ∧
      t.counts.entries = [(2, 1)] := by
  intro t
  have hsearched : threeContracts.map (Classification.ofRecord Catalog.builtIn) =
      threeTimed.map (.ok ·.1) := by
    have hshows : ∀ i : Fin 3, (Classification.ofRecord Catalog.builtIn threeContracts[i]).toOption.map
        (·.patterns) = some threeTimed[i].1.patterns := by decide +kernel
    refine congrArg₂ List.cons ?_ (congrArg₂ List.cons ?_ (congrArg₂ List.cons ?_ rfl))
    · exact Classification.ofRecord_of_patterns (hshows 0)
    · exact Classification.ofRecord_of_patterns (hshows 1)
    · exact Classification.ofRecord_of_patterns (hshows 2)
  obtain ⟨-, -, -, -, -, hshown, htypes⟩ := counts_add_up threeTimed
  have htwo : threeContracts.countP
      (Detection.Shows Catalog.builtIn ·.bytecode .legacyUpgradeable) = 2 := by decide +kernel
  exact ⟨hsearched, htwo, (htypes _ _ hsearched _).trans htwo, hshown, by decide, by decide⟩

end ScanTally

end ProxyCensus
