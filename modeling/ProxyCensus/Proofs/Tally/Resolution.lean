import ProxyCensus.Proofs.Analysis
import ProxyCensus.Proofs.Checkpoint.Snapshot
import ProxyCensus.Proofs.Contract.Classification
import ProxyCensus.Proofs.Json.Written
import ProxyCensus.Proofs.Tally.Ledger
import ProxyCensus.Tally.Resolution

/-!
# The files of a resolution

What the tally of a resolution holds after some contracts, and when its files can be written. Main
statements: every contract is counted once, either under the names of its patterns or in the registry
of diamonds, as what detection says of it decides; and a tally of fewer than `2 ^ 64` contracts has
files that can be written.
-/

namespace ProxyCensus

namespace ResolutionTally

/-- A tally has counted the contracts `cs` while it worked on the chains `chains`. -/
structure Counts (t : ResolutionTally) (chains : List String) (cs : List Classification) : Prop where
  processed : t.processed = cs.length
  chains : t.chains = chains
  types : ∀ label, t.types.count label = cs.countP fun c => !c.isDiamond && c.label == label
  diamonds : ∀ chain, t.diamonds.items chain =
    (cs.filter fun c => c.isDiamond && toString c.chainId == chain).map (·.address)

theorem counts_empty : Counts {} [] [] :=
  ⟨rfl, rfl, fun _ => rfl, fun _ => rfl⟩

theorem Counts.addChain {t : ResolutionTally} {chains : List String} {cs : List Classification}
    (h : t.Counts chains cs) {chain : String} (hnew : chain ∉ chains) :
    (t.addChain chain).Counts (chains ++ [chain]) cs := by
  rw [addChain_of_not_mem (h.chains ▸ hnew)]
  exact { h with chains := congrArg (· ++ [chain]) h.chains }

/-- A contract is counted as what detection says of it decides. -/
theorem Counts.record {t : ResolutionTally} {chains : List String} {cs : List Classification}
    (h : t.Counts chains cs) {n : Nat} {c c' : Classification} (hc : c.Extends n c') :
    (t.record c').Counts chains (cs ++ [c]) := by
  have hdiamond : c'.isDiamond = c.isDiamond := by
    rw [Classification.isDiamond, hc.kind]
    rfl
  have hlabel : c'.label = c.label := by
    rw [Classification.label, hc.patterns]
    rfl
  have hlength : t.processed + 1 = (cs ++ [c]).length := by
    rw [h.processed, List.length_append]
    rfl
  unfold ResolutionTally.record
  rw [hdiamond]
  cases hd : c.isDiamond with
  | true =>
    refine ⟨hlength, h.chains, fun label => ?_, fun chain => ?_⟩
    · rw [List.countP_append, ← h.types label]
      simp [recordDiamond, hd]
    · have hitems := Ledger.items_append t.diamonds (toString c.chainId) chain c.address
      rw [List.filter_append, List.map_append, ← h.diamonds chain]
      simp only [if_true, recordDiamond, hc.chainId, hc.address, hitems, List.filter_cons,
        List.filter_nil, hd, Bool.true_and, beq_iff_eq]
      split <;> rfl
  | false =>
    refine ⟨hlength, h.chains, fun label => ?_, fun chain => ?_⟩
    · have hcount := Ledger.count_tally t.types c.label label
      rw [List.countP_append, ← h.types label]
      simp only [Bool.false_eq_true, if_false, recordOther, hlabel, hcount]
      by_cases hl : c.label = label <;> simp [hd, hl]
    · rw [List.filter_append, List.map_append, ← h.diamonds chain]
      simp [recordOther, hd]

/-- Texts under chains and addresses that can be written. -/
def Nested (l : Ledger String (Ledger String (List String))) : Prop :=
  ∀ chain ∈ l.entries, Text.hasHalf chain.1 = false ∧
    ∀ e ∈ chain.2.entries, Text.hasHalf e.1 = false ∧ ∀ s ∈ e.2, Text.hasHalf s = false

/-- What a tally of at most `n` contracts holds. -/
structure Within (t : ResolutionTally) (n : Nat) : Prop where
  processed : t.processed ≤ n
  chains : ∀ chain ∈ t.chains, Text.hasHalf chain = false
  types : ∀ e ∈ t.types.entries, Text.hasHalf e.1 = false ∧ e.2 ≤ n
  sizes : ∀ e ∈ t.counts.entries, e.1 ≤ Pattern.all.length
  counts : ∀ e ∈ t.counts.entries, e.2 ≤ n
  several : Nested t.several
  diamonds : ∀ e ∈ t.diamonds.entries,
    Text.hasHalf e.1 = false ∧ ∀ s ∈ e.2, Text.hasHalf s = false
  facets : Nested t.facets

theorem within_empty : Within {} 0 := by
  refine ⟨Nat.le_refl 0, ?_, ?_, ?_, ?_, ?_, ?_, ?_⟩ <;>
  · intro e he
    cases he

theorem Within.mono {t : ResolutionTally} {n m : Nat} (h : t.Within n) (hnm : n ≤ m) : t.Within m :=
  { h with
    processed := h.processed.trans hnm
    types := fun e he => ⟨(h.types e he).1, (h.types e he).2.trans hnm⟩
    counts := fun e he => (h.counts e he).trans hnm }

theorem Within.addChain {t : ResolutionTally} {n : Nat} (h : t.Within n) {chain : String}
    (hchain : Text.hasHalf chain = false) : (t.addChain chain).Within n := by
  obtain ⟨chains, heq⟩ := t.addChain_eq chain
  have hchains : ∀ other ∈ (t.addChain chain).chains, Text.hasHalf other = false := by
    intro other hother
    rcases mem_chains_addChain.1 hother with hother | rfl
    · exact h.chains other hother
    · exact hchain
  rw [heq] at hchains ⊢
  exact { h with chains := hchains }

theorem Nested.putAddress {l : Ledger String (Ledger String (List String))} (h : Nested l)
    {chain address : String} {items : List String} (hchain : Text.hasHalf chain = false)
    (haddress : Text.hasHalf address = false) (hitems : ∀ s ∈ items, Text.hasHalf s = false) :
    Nested (putAddress l chain address items) := by
  have hput : ∀ known : Ledger String (List String),
      (∀ e ∈ known.entries, Text.hasHalf e.1 = false ∧ ∀ s ∈ e.2, Text.hasHalf s = false) →
      ∀ e ∈ (known.put address items).entries,
        Text.hasHalf e.1 = false ∧ ∀ s ∈ e.2, Text.hasHalf s = false :=
    fun known hknown => Ledger.forall_update hknown ⟨haddress, hitems⟩ fun _ _ => ⟨haddress, hitems⟩
  refine Ledger.forall_update h ⟨hchain, hput _ ?_⟩ fun known hknown => ⟨hchain, hput _ hknown.2⟩
  intro e he
  cases he

/-- A classification whose texts can be written and that names few implementations. -/
structure Writable (c : Classification) : Prop where
  address : Text.hasHalf c.address = false
  few : c.implementationCount ≤ Pattern.all.length
  implementations : ∀ a ∈ c.implementations, Text.hasHalf a = false
  facets : ∀ a ∈ c.facets, Text.hasHalf a = false

theorem writable_of_extends {c c' : Classification} {n : Nat} (h : c.Extends n c')
    (haddress : Text.hasHalf c.address = false) (hn : n ≤ Pattern.all.length) : Writable c' :=
  ⟨h.address ▸ haddress, h.few.trans hn, fun a ha => (h.implementations a ha).1.hasHalf,
    fun a ha => (h.facets a ha).1.hasHalf⟩

theorem Within.recordDiamond {t : ResolutionTally} {n : Nat} (h : t.Within n) {c : Classification}
    (hc : Writable c) : (t.recordDiamond c).Within (n + 1) := by
  have hchain := Text.hasHalf_toString_int c.chainId
  refine { h.mono (Nat.le_succ n) with
    processed := Nat.succ_le_succ h.processed, diamonds := ?_, facets := ?_ }
  · refine Ledger.forall_update h.diamonds ⟨hchain, ?_⟩ fun items hitems => ⟨hchain, ?_⟩
    · intro s hs
      exact List.mem_singleton.1 hs ▸ hc.address
    · intro s hs
      rcases List.mem_append.1 hs with hs | hs
      · exact hitems.2 s hs
      · exact List.mem_singleton.1 hs ▸ hc.address
  · dsimp only [ResolutionTally.recordDiamond]
    split
    · exact h.facets
    · exact h.facets.putAddress hchain hc.address hc.facets

theorem Within.recordOther {t : ResolutionTally} {n : Nat} (h : t.Within n) {c : Classification}
    (hc : Writable c) : (t.recordOther c).Within (n + 1) := by
  have hlabel := Classification.hasHalf_labelOf c.patterns
  refine { h.mono (Nat.le_succ n) with
    processed := Nat.succ_le_succ h.processed
    types := fun e he => ⟨?_, ?_⟩, sizes := ?_, counts := fun e he => ?_, several := ?_ }
  · exact Ledger.forall_update (P := fun e => Text.hasHalf e.1 = false)
      (fun e he => (h.types e he).1) hlabel (fun _ h => h) e he
  · have := Ledger.tally_le (fun _ => n) (fun e he => (h.types e he).2) c.label e he
    split at this <;> omega
  · exact Ledger.forall_update h.sizes hc.few fun _ h => h
  · have := Ledger.tally_le (fun _ => n) h.counts c.implementationCount e he
    split at this <;> omega
  · dsimp only [ResolutionTally.recordOther]
    split
    · refine h.several.putAddress (Text.hasHalf_toString_int c.chainId) hc.address fun s hs => ?_
      rcases List.mem_cons.1 hs with rfl | hs
      · exact hlabel
      · exact hc.implementations s hs
    · exact h.several

theorem Within.record {t : ResolutionTally} {n : Nat} (h : t.Within n) {c : Classification}
    (hc : Writable c) : (t.record c).Within (n + 1) := by
  unfold ResolutionTally.record
  split
  · exact h.recordDiamond hc
  · exact h.recordOther hc

def fileNames : List String :=
  ["result.json", "multi-implementation-addresses.json", "diamond-proxies.json",
    "diamond-facets.json"]

theorem names_artifacts (t : ResolutionTally) : t.artifacts.map (·.1) = fileNames := rfl

theorem family_fileNames : Snapshot.Family fileNames := by
  refine ⟨fun name h => ?_, by decide, by decide⟩
  have h : name = "result.json" ∨ name = "multi-implementation-addresses.json" ∨
      name = "diamond-proxies.json" ∨ name = "diamond-facets.json" := by simpa [fileNames] using h
  rcases h with rfl | rfl | rfl | rfl <;>
  exact .of_no_slash (by decide) (by decide) (by decide) ⟨by decide, by decide, by decide⟩
    ⟨by decide, by decide, by decide⟩

theorem writable_lists {es : List (String × List String)} {level : Nat}
    (hlevel : Document.mayNest level = true) (hlevel' : Document.mayNest (level + 1) = true)
    (h : ∀ e ∈ es, Text.hasHalf e.1 = false ∧ ∀ s ∈ e.2, Text.hasHalf s = false) :
    Document.Writable level (.table (es.map fun e => (.text e.1, .texts e.2))) := by
  refine Document.writable_table_map hlevel fun e he => ?_
  obtain ⟨hkey, hitems⟩ := h e he
  exact ⟨.text hkey, Document.writable_texts hlevel' hitems⟩

theorem Nested.writable {l : Ledger String (Ledger String (List String))} (h : Nested l) :
    Document.Writable 0 (nested l) := by
  refine Document.writable_table_map (by decide) fun chain hchain => ?_
  obtain ⟨hkey, hentries⟩ := h chain hchain
  exact ⟨.text hkey, writable_lists (by decide) (by decide) hentries⟩

theorem Within.writable {t : ResolutionTally} {n : Nat} (h : t.Within n) (hn : n < 2 ^ 64) :
    ∀ doc ∈ t.artifacts, Document.Writable 0 doc.2 := by
  have hcount : ∀ {k level : Nat}, k ≤ n → Document.Writable level (.count k) :=
    fun hk => Document.writable_count (Nat.lt_of_le_of_lt hk hn)
  have hfew : Pattern.all.length < 2 ^ 64 := by decide
  intro doc hdoc
  simp only [artifacts, List.mem_cons, List.not_mem_nil, or_false] at hdoc
  rcases hdoc with rfl | rfl | rfl | rfl
  · refine Document.writable_table (by decide) fun f hf => ?_
    simp only [List.mem_cons, List.not_mem_nil, or_false] at hf
    rcases hf with rfl | rfl | rfl | rfl
    · exact ⟨.text (by decide), hcount h.processed⟩
    · exact ⟨.text (by decide), Document.writable_texts (by decide) h.chains⟩
    · refine ⟨.text (by decide), Document.writable_table_map (by decide) fun e he => ?_⟩
      exact ⟨.int (isWord_of_lt (Nat.lt_of_le_of_lt (h.sizes e he) hfew)), hcount (h.counts e he)⟩
    · refine ⟨.text (by decide), Document.writable_table_map (by decide) fun e he => ?_⟩
      exact ⟨.text (h.types e he).1, hcount (h.types e he).2⟩
  · exact h.several.writable
  · exact writable_lists (by decide) (by decide) h.diamonds
  · exact h.facets.writable

/-- The files of a tally of fewer than `2 ^ 64` contracts can be written. -/
theorem Within.rendered {t : ResolutionTally} {n : Nat} (h : t.Within n) (hn : n < 2 ^ 64) :
    ∀ doc ∈ t.artifacts, ∃ text, doc.2.render = .ok text :=
  fun doc hdoc => Document.render_of_writable (h.writable hn doc hdoc)

end ResolutionTally

end ProxyCensus
