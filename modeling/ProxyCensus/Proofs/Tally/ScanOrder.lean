import ProxyCensus.Proofs.Json.FieldOrder
import ProxyCensus.Proofs.Tally.Ledger
import ProxyCensus.Tally.Scan

/-!
# The order in which a scan counts

Apart from how long contracts took, the tally of a scan is told by the contracts that it has counted. Main
statement: the first file of a scan has the same text in whatever order the contracts were counted.
-/

namespace ProxyCensus.ScanTally

open Document (SameText)

def ofContracts (cs : List Classification) : ScanTally where
  analyzed := cs.length
  proxies := cs.countP fun c => 0 < c.matchCount
  types := (cs.flatMap (·.patterns)).foldl Ledger.tally .empty
  counts := ((cs.filter fun c => 1 < c.matchCount).map (·.matchCount)).foldl Ledger.tally .empty
  candidates := (cs.filter fun c => 1 < c.matchCount).foldl
    (fun listed c => listed.append (toString c.chainId) c.address) .empty

/-- A tally apart from how long contracts took. -/
def untimed (t : ScanTally) : ScanTally :=
  { t with durations := #[] }

theorem untimed_record {t : ScanTally} {cs : List Classification} (h : t.untimed = ofContracts cs)
    (c : Classification) (duration : Decimal.Number) :
    (t.record c duration).untimed = ofContracts (cs ++ [c]) := by
  have hrecord : (t.record c duration).untimed = (t.untimed.record c duration).untimed := by
    unfold record recordCandidate untimed
    split <;> rfl
  rw [hrecord, h]
  unfold record recordCandidate untimed ofContracts
  by_cases hproxy : 0 < c.matchCount
  · by_cases hseveral : 1 < c.matchCount <;> simp [hproxy, hseveral, List.countP_append]
  · have hseveral : ¬1 < c.matchCount := by omega
    simp [hproxy, hseveral, List.countP_append]

def results (t : ScanTally) : Document := .table [
  (.text "analyzedContracts", .count t.analyzed),
  (.text "proxyCount", .count t.proxies),
  (.text "proxyTypes", .table (t.types.entries.map fun e => (.text e.1.name, .count e.2))),
  (.text "multiProxyContractsCount", .table (t.counts.entries.map fun e => (.int e.1, .count e.2)))]

def listing (t : ScanTally) : Document :=
  .table (t.candidates.entries.map fun e => (.text e.1, .texts e.2))

theorem documents_eq (t : ScanTally) (stats : Option DurationStats) : t.documents stats = [
    ("results.json", t.results), ("multi-proxy-contracts.json", t.listing),
    ("durations-stats.json", .table ((DurationStats.fields stats).map fun f =>
      (.text f.1, optionalNumber f.2)))] :=
  rfl

/-- A table of counts has the same text in whatever order the keys are counted. -/
theorem sameText_counts {κ : Type} [DecidableEq κ] {keys keys' : List κ} (h : keys.Perm keys')
    {key : κ → Key}
    (hkey : ∀ {a b k}, Document.keyText (key a) = .ok k → Document.keyText (key b) = .ok k → a = b) :
    SameText 1
      (.table ((keys.foldl Ledger.tally .empty).entries.map fun e => (key e.1, .count e.2)))
      (.table ((keys'.foldl Ledger.tally .empty).entries.map fun e => (key e.1, .count e.2))) :=
  .table_of_perm ((Ledger.entries_foldl_tally_perm h).map _)
    (Document.apart_of_nodup (Ledger.nodup_keys_foldl_tally keys Ledger.nodup_keys_empty) hkey _)

/-- The first file has the same text in whatever order contracts are counted. -/
theorem sameText_results {cs cs' : List Classification} (h : cs.Perm cs') :
    SameText 0 (ofContracts cs).results (ofContracts cs').results := by
  have hanalyzed : (ofContracts cs).analyzed = (ofContracts cs').analyzed := h.length_eq
  have hproxies : (ofContracts cs).proxies = (ofContracts cs').proxies := h.countP_eq _
  have htypes := @sameText_counts Pattern _ _ _ (h.flatMap_right (·.patterns)) (fun p => .text p.name)
    fun hk hk' => Pattern.name_injective (Document.keyText_text_inj hk hk')
  have hcounts := @sameText_counts Nat _ _ _
    ((h.filter fun c => 1 < c.matchCount).map Classification.matchCount) (fun n => .int n)
    fun hk hk' => Int.ofNat_inj.1 (Document.keyText_int_inj hk hk')
  unfold results
  rw [hanalyzed, hproxies]
  exact .table (.cons ⟨rfl, .refl _ _⟩
    (.cons ⟨rfl, .refl _ _⟩ (.cons ⟨rfl, htypes⟩ (.cons ⟨rfl, hcounts⟩ .nil))))

end ProxyCensus.ScanTally
