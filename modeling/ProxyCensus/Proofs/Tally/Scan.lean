import ProxyCensus.Proofs.Checkpoint.Snapshot
import ProxyCensus.Proofs.Contract.Classification
import ProxyCensus.Proofs.Decimal.Number
import ProxyCensus.Proofs.Json.Written
import ProxyCensus.Proofs.Tally.Ledger
import ProxyCensus.Tally.Scan

/-!
# The files of a scan

What the tally of a scan holds after some contracts, and when its files can be written. Main
statement: a tally of fewer than `2 ^ 64` contracts that were timed in doubles has files, and each of
them can be written.
-/

namespace ProxyCensus

open Decimal (Number)
open Decimal.Number (Tame)

/-- A classification as detection makes it: few distinct patterns, and an address of plain
characters. -/
structure Classification.Detected (c : Classification) : Prop where
  nodup : c.patterns.Nodup
  few : c.patterns.length ≤ Pattern.all.length
  plain : Text.hasHalf c.address = false

theorem Classification.detected_of_row {catalog : List Definition} {row : List (String × Json)}
    {record : ContractRecord} {c : Classification} (hrow : ContractRecord.ofRow row = .ok record)
    (h : ofRecord catalog record = .ok c) : c.Detected := by
  obtain ⟨s, hs⟩ := ContractRecord.address_of_ofRow hrow
  obtain ⟨hdigits, haddress⟩ := Address.normalize?_eq_some hs
  refine ⟨nodup_patterns h, length_patterns_le h, ?_⟩
  rw [address_of_ofRecord h, haddress]
  exact Address.hasHalf_ofDigits hdigits.2

namespace ScanTally

/-- What a tally of at most `n` contracts holds. -/
structure Within (t : ScanTally) (n : Nat) : Prop where
  analyzed : t.analyzed ≤ n
  proxies : t.proxies ≤ n
  types : ∀ e ∈ t.types.entries, e.2 ≤ n
  sizes : ∀ e ∈ t.counts.entries, e.1 ≤ Pattern.all.length
  counts : ∀ e ∈ t.counts.entries, e.2 ≤ n
  candidates : ∀ e ∈ t.candidates.entries,
    Text.hasHalf e.1 = false ∧ ∀ address ∈ e.2, Text.hasHalf address = false
  durations : ∀ d ∈ t.durations.toList, Tame d

theorem within_empty : Within {} 0 := by
  refine ⟨Nat.le_refl 0, Nat.le_refl 0, ?_, ?_, ?_, ?_, ?_⟩ <;>
  · intro e he
    cases he

theorem Within.mono {t : ScanTally} {n m : Nat} (h : t.Within n) (hnm : n ≤ m) : t.Within m :=
  ⟨h.analyzed.trans hnm, h.proxies.trans hnm, fun e he => (h.types e he).trans hnm, h.sizes,
    fun e he => (h.counts e he).trans hnm, h.candidates, h.durations⟩

theorem Within.recordCandidate {t : ScanTally} {n : Nat} {c : Classification}
    (h : t.Within (n + 1)) (hcounts : ∀ e ∈ t.counts.entries, e.2 ≤ n) (hc : c.Detected) :
    (t.recordCandidate c).Within (n + 1) := by
  unfold ScanTally.recordCandidate
  split
  · refine ⟨h.analyzed, h.proxies, h.types, ?_, ?_, ?_, h.durations⟩
    · exact Ledger.forall_update h.sizes hc.few fun _ h => h
    · intro e he
      have := Ledger.tally_le (fun _ => n) hcounts c.matchCount e he
      split at this <;> omega
    · refine Ledger.forall_update h.candidates ?_ ?_
      · refine ⟨Text.hasHalf_toString_int _, fun a ha => ?_⟩
        obtain rfl : a = c.address := by simpa using ha
        exact hc.plain
      · intro items hitems
        refine ⟨hitems.1, fun a ha => ?_⟩
        rcases List.mem_append.1 ha with ha | ha
        · exact hitems.2 a ha
        · exact (List.mem_singleton.1 ha) ▸ hc.plain
  · exact h

theorem Within.record {t : ScanTally} {n : Nat} {c : Classification} (h : t.Within n)
    (hc : c.Detected) (x : Float) : (t.record c (.real x)).Within (n + 1) := by
  refine Within.recordCandidate ⟨?_, ?_, ?_, h.sizes, ?_, h.candidates, ?_⟩ h.counts hc
  · exact Nat.succ_le_succ h.analyzed
  · have := h.proxies
    dsimp only
    split <;> omega
  · exact Ledger.foldl_tally_le_succ hc.nodup h.types
  · exact fun e he => (h.counts e he).trans (Nat.le_succ n)
  · intro d hd
    rcases List.mem_append.1 (Array.toList_push ▸ hd) with hd | hd
    · exact h.durations d hd
    · exact (List.mem_singleton.1 hd) ▸ .real x

theorem mean_tame {a : Number} (h : Tame a) {n : Nat} (hn : n ≠ 0) :
    ∃ x, mean (some a) n = .ok x := by
  obtain ⟨x, hx⟩ := Number.dividedBy?_tame h hn
  refine ⟨x, ?_⟩
  change Failure.orElse _ (a.dividedBy? n) = _
  rw [hx]
  rfl

theorem median_tame {numbers : List Number} (h : ∀ a ∈ numbers, Tame a) :
    ∃ m, median (Number.sort numbers) = .ok m ∧ Tame m := by
  have hget := Number.getD_tame (Number.sort_tame h)
  unfold median
  dsimp only
  split
  · exact ⟨_, rfl, hget _⟩
  · obtain ⟨b, hb, htame⟩ := Number.add?_tame (hget _) (hget _)
    obtain ⟨x, hx⟩ := mean_tame htame (by decide : 2 ≠ 0)
    exact ⟨.real x, by rw [hb, hx]; rfl, .real x⟩

theorem foldl_pick_mem (pick : Number → Number → Bool) (rest : List Number) :
    ∀ first, rest.foldl (fun a b => if pick a b then b else a) first ∈ first :: rest := by
  induction rest with
  | nil => exact fun first => List.mem_cons_self
  | cons b rest ih =>
    intro first
    rw [List.foldl_cons]
    split
    · exact List.mem_cons_of_mem _ (ih b)
    · rcases List.mem_cons.1 (ih first) with h | h
      · rw [h]
        exact List.mem_cons_self
      · exact List.mem_cons_of_mem _ (List.mem_cons_of_mem _ h)

structure DurationStats.Measured (s : DurationStats) : Prop where
  least : Number.Tame s.least
  most : Number.Tame s.most
  median : Number.Tame s.median

theorem Within.stats {t : ScanTally} {n : Nat} (h : t.Within n) :
    ∃ s, t.stats = .ok s ∧ ∀ d ∈ s, DurationStats.Measured d := by
  unfold ScanTally.stats
  have hall := h.durations
  cases hd : t.durations.toList with
  | nil => exact ⟨none, rfl, fun d h => by cases h⟩
  | cons first rest =>
    rw [hd] at hall
    obtain ⟨sum, hsum, htame⟩ := Number.sum?_tame hall
    obtain ⟨average, haverage⟩ := mean_tame htame (Nat.succ_ne_zero rest.length)
    obtain ⟨m, hm, hmtame⟩ := median_tame hall
    have hleast := hall _ (foldl_pick_mem (fun a b => b.less a) rest first)
    have hmost := hall _ (foldl_pick_mem (fun a b => a.less b) rest first)
    refine ⟨some ⟨average, rest.foldl (fun a b => if b.less a then b else a) first,
      rest.foldl (fun a b => if a.less b then b else a) first, m⟩, ?_, ?_⟩
    · simp only [hsum, List.length_cons, haverage, hm]
      rfl
    · intro d hd
      obtain rfl := Option.some.inj hd
      exact ⟨hleast, hmost, hmtame⟩

def fileNames : List String :=
  ["results.json", "multi-proxy-contracts.json", "durations-stats.json"]

theorem names_documents (t : ScanTally) (stats : Option DurationStats) :
    (t.documents stats).map (·.1) = fileNames := rfl

/-- The names stand for files of their own. -/
theorem family_fileNames : Snapshot.Family fileNames := by
  refine ⟨fun name h => ?_, by decide, by decide⟩
  have h : name = "results.json" ∨ name = "multi-proxy-contracts.json" ∨
      name = "durations-stats.json" := by simpa [fileNames] using h
  rcases h with rfl | rfl | rfl <;>
  exact .of_no_slash (by decide) (by decide) (by decide) ⟨by decide, by decide, by decide⟩
    ⟨by decide, by decide, by decide⟩

theorem writable_optionalNumber {level : Nat} {a : Option Number} (h : ∀ d ∈ a, Tame d) :
    Document.Writable level (optionalNumber a) := by
  cases a with
  | none => exact .null
  | some d =>
    cases h d rfl with
    | zero => exact .int ⟨by decide, by decide⟩
    | real x => exact .float x

theorem DurationStats.writable_fields {stats : Option DurationStats}
    (hs : ∀ d ∈ stats, DurationStats.Measured d) :
    ∀ f ∈ DurationStats.fields stats,
      (Key.text f.1).Writable ∧ Document.Writable 1 (optionalNumber f.2) := by
  have hnumber : ∀ get : DurationStats → Number, (∀ d ∈ stats, Tame (get d)) →
      Document.Writable 1 (optionalNumber (stats.map get)) := by
    intro get hget
    refine writable_optionalNumber fun a ha => ?_
    obtain ⟨d, hd, rfl⟩ := Option.map_eq_some_iff.1 ha
    exact hget d hd
  intro f hf
  simp only [DurationStats.fields, List.mem_cons, List.not_mem_nil, or_false] at hf
  rcases hf with rfl | rfl | rfl | rfl
  · exact ⟨.text (by decide : Text.hasHalf "averageDurationMs" = false),
      hnumber (.real ·.average) fun d _ => .real d.average⟩
  · exact ⟨.text (by decide : Text.hasHalf "minDurationMs" = false),
      hnumber (·.least) fun d hd => (hs d hd).least⟩
  · exact ⟨.text (by decide : Text.hasHalf "maxDurationMs" = false),
      hnumber (·.most) fun d hd => (hs d hd).most⟩
  · exact ⟨.text (by decide : Text.hasHalf "medianDurationMs" = false),
      hnumber (·.median) fun d hd => (hs d hd).median⟩

/-- The files of a tally of not too many contracts can be written. -/
theorem Within.writable {t : ScanTally} {n : Nat} (h : t.Within n) (hn : n < 2 ^ 64)
    {stats : Option DurationStats} (hs : ∀ d ∈ stats, DurationStats.Measured d) :
    ∀ doc ∈ t.documents stats, Document.Writable 0 doc.2 := by
  have hcount : ∀ {k level : Nat}, k ≤ n → Document.Writable level (.count k) :=
    fun hk => Document.writable_count (Nat.lt_of_le_of_lt hk hn)
  have hfew : Pattern.all.length < 2 ^ 64 := by decide
  intro doc hdoc
  simp only [documents, List.mem_cons, List.not_mem_nil, or_false] at hdoc
  rcases hdoc with rfl | rfl | rfl
  · refine Document.writable_table (by decide) fun f hf => ?_
    simp only [List.mem_cons, List.not_mem_nil, or_false] at hf
    rcases hf with rfl | rfl | rfl | rfl
    · exact ⟨.text (by decide), hcount h.analyzed⟩
    · exact ⟨.text (by decide), hcount h.proxies⟩
    · refine ⟨.text (by decide), Document.writable_table_map (by decide) fun e he => ?_⟩
      exact ⟨.text e.1.hasHalf_name, hcount (h.types e he)⟩
    · refine ⟨.text (by decide), Document.writable_table_map (by decide) fun e he => ?_⟩
      exact ⟨.int (isWord_of_lt (Nat.lt_of_le_of_lt (h.sizes e he) hfew)), hcount (h.counts e he)⟩
  · refine Document.writable_table_map (by decide) fun e he => ?_
    obtain ⟨hkey, hitems⟩ := h.candidates e he
    exact ⟨.text hkey, Document.writable_texts (by decide) hitems⟩
  · exact Document.writable_table_map (by decide) (DurationStats.writable_fields hs)

/-- A tally of fewer than `2 ^ 64` contracts has files, and each of them can be written. -/
theorem Within.artifacts {t : ScanTally} {n : Nat} (h : t.Within n) (hn : n < 2 ^ 64) :
    ∃ docs, t.artifacts = .ok docs ∧ docs.map (·.1) = fileNames ∧
      ∀ doc ∈ docs, ∃ text, doc.2.render = .ok text := by
  obtain ⟨stats, hstats, htame⟩ := h.stats
  refine ⟨t.documents stats, ?_, names_documents t stats, fun doc hdoc => ?_⟩
  · rw [ScanTally.artifacts, hstats]
    rfl
  · exact Document.render_of_writable (h.writable hn htame doc hdoc)

end ScanTally

end ProxyCensus
