import ProxyCensus.Proofs.Job.ResolveChains
import ProxyCensus.Proofs.Job.ResolveNodes
import ProxyCensus.Proofs.Job.ScanCandidates
import ProxyCensus.Proofs.Job.ScanInterruption
import ProxyCensus.Proofs.Json.ReadBack

/-!
# Both passes

A scan of a corpus and the resolution of its candidates against the same corpus. Main statement: with
no more rounds than there are pauses the resolution counts every candidate of the scan and skips none,
whatever the nodes reply, exactly when no reply nests too deep to be read; it skips every candidate when
all replies do, and with more rounds when the nodes always ask to slow down.
-/

namespace ProxyCensus

open Scan (candidates)

variable {α : Type}

/-- A candidate of the scan of a consistent corpus is known to it by its chain and its address. -/
theorem Resolve.known_of_candidate {rows : List Row} (hrows : Corpus.Consistent rows)
    {out : Outside α} (hcodes : ∀ chain key, out.codes chain key = Corpus.codesAt rows chain key)
    {catalog : List Definition} {c : Classification} (hc : c ∈ candidates catalog rows) :
    Known out catalog c ∧ Text.integer (toString c.chainId) = .ok c.chainId := by
  obtain ⟨⟨row, hrow, hdetected⟩, hseveral⟩ := Scan.mem_candidates.1 hc
  obtain ⟨record, hrecord, hclassified⟩ := Scan.detected?_eq_some_iff.1 hdetected
  obtain ⟨found, hfound, hmatches⟩ := Classification.ofRecord_eq_ok_iff.1 hclassified
  have hchain := Classification.chainId_of_ofRecord hclassified
  have haddress := Classification.address_of_ofRecord hclassified
  obtain ⟨hidentity, hspelled⟩ := Corpus.identity?_of_ofRow (hrows.proper row hrow) hrecord
  have hinteger : (Json.str (toString record.chainId)).integer = .ok record.chainId := by
    change (Text.integer (toString record.chainId)).mapError _ = _
    rw [hspelled]
    rfl
  obtain ⟨record', hrecord', hchain', haddress', hbytecode⟩ :=
    ContractRecord.ofCode_of_ofRow hrecord hinteger
  rw [← hbytecode] at hfound
  refine ⟨⟨⟨Corpus.codeOf row, record', found, ?_, ?_, hfound, ?_⟩, hseveral,
    Classification.length_patterns_le hclassified,
    (Classification.detected_of_row hrecord hclassified).plain⟩, hchain ▸ hspelled⟩
  · rw [hchain, haddress, hcodes]
    exact hrows.codesAt hrow hidentity
  · rw [hchain, haddress]
    unfold search
    rw [show ContractRecord.ofCode (.str (toString record.chainId)) (.str record.address)
      (Corpus.codeOf row) = .ok record' from hrecord']
    change (Detection.inText catalog record'.bytecode >>= _) = _
    rw [hfound]
    rfl
  · rw [← hmatches]
    unfold Classification.ofMatches
    rw [hchain', haddress']

namespace Resolve

/-- The candidates of the chain with a key. -/
def groupOf (cs : List Classification) (chain : String) : Group :=
  ⟨(Text.int? chain).getD 0, cs.filter fun c => toString c.chainId == chain⟩

/-- Candidates whose chains are read back from their keys. -/
def Spelled (cs : List Classification) : Prop :=
  ∀ c ∈ cs, Text.integer (toString c.chainId) = .ok c.chainId

theorem chainId_groupOf {cs : List Classification} (h : Spelled cs) {c : Classification} (hc : c ∈ cs) :
    (groupOf cs (toString c.chainId)).chainId = c.chainId := by
  unfold groupOf Text.int?
  rw [h c hc]
  rfl

theorem chain_groupOf {cs : List Classification} (h : Spelled cs) {chain : String}
    (hchain : ∃ c ∈ cs, toString c.chainId = chain) : (groupOf cs chain).chain = chain := by
  obtain ⟨c, hc, rfl⟩ := hchain
  rw [Group.chain, chainId_groupOf h hc]

theorem listed_groupOf {cs : List Classification} (h : Spelled cs) {out : Outside α}
    {start : Resolve α} (hknown : ∀ c ∈ cs, Known out start.task.catalog c) {chain : String}
    (hchain : ∃ c ∈ cs, toString c.chainId = chain) (hreachable : Reachable start.task.nodes chain) :
    (groupOf cs chain).Listed out start := by
  have hkey := chain_groupOf h hchain
  obtain ⟨c, hc, rfl⟩ := hchain
  refine ⟨hkey.symm ▸ hreachable, ?_, ?_, fun c' hc' => ?_⟩
  · rw [hkey, chainId_groupOf h hc, Text.int?, h c hc]
    rfl
  · rw [hkey]
    exact Text.hasHalf_toString_int _
  · obtain ⟨hc', heq⟩ := List.mem_filter.1 hc'
    refine ⟨hknown c' hc', ?_⟩
    have hsame := h c' hc'
    rw [beq_iff_eq.1 heq, h c hc] at hsame
    rw [chainId_groupOf h hc]
    exact (Except.ok.inj hsame).symm

section Grouping

variable {β κ : Type} [DecidableEq κ] {key : β → κ}

theorem flatMap_filter_perm (keys : List κ) :
    ∀ {items : List β}, keys.Nodup → (∀ a ∈ items, key a ∈ keys) →
      (keys.flatMap fun k => items.filter fun a => key a == k).Perm items := by
  induction keys with
  | nil =>
    intro items _ hkeys
    cases items with
    | nil => exact List.Perm.nil
    | cons a rest => cases hkeys a List.mem_cons_self
  | cons k rest ih =>
    intro items hnodup hkeys
    obtain ⟨hk, hrest⟩ := List.nodup_cons.1 hnodup
    have hothers : (rest.flatMap fun k' => items.filter fun a => key a == k') =
        rest.flatMap fun k' => (items.filter fun a => !(key a == k)).filter fun a => key a == k' := by
      refine List.flatMap_congr fun k' hk' => ?_
      rw [List.filter_filter]
      refine List.filter_congr fun a _ => ?_
      by_cases ha : key a = k'
      · have hne : ¬key a = k := fun h => hk (h ▸ ha ▸ hk')
        simp [ha, ha ▸ hne]
      · simp [ha]
    have hperm := @ih (items.filter fun a => !(key a == k)) hrest fun a ha => by
      obtain ⟨ha, hne⟩ := List.mem_filter.1 ha
      refine (List.mem_cons.1 (hkeys a ha)).resolve_left ?_
      simpa using hne
    rw [List.flatMap_cons, hothers]
    exact (hperm.append_left _).trans (List.filter_append_perm (fun a => key a == k) items)

theorem filter_flatMap_filter (p : β → Bool) (chosen : κ) (items : List β) (keys : List κ) :
    keys.Nodup →
      (keys.flatMap fun k => items.filter fun a => key a == k).filter
          (fun a => p a && key a == chosen) =
        if chosen ∈ keys then items.filter fun a => p a && key a == chosen else [] := by
  induction keys with
  | nil => exact fun _ => rfl
  | cons k rest ih =>
    intro hnodup
    obtain ⟨hk, hrest⟩ := List.nodup_cons.1 hnodup
    rw [List.flatMap_cons, List.filter_append, ih hrest, List.filter_filter]
    by_cases hchosen : k = chosen
    · subst hchosen
      rw [if_neg hk, List.append_nil, if_pos List.mem_cons_self]
      refine List.filter_congr fun a _ => ?_
      cases key a == k <;> simp
    · have hnone : (items.filter fun a => (p a && key a == chosen) && key a == k) = [] := by
        rw [List.filter_eq_nil_iff]
        intro a _ ha
        simp only [Bool.and_eq_true, beq_iff_eq] at ha
        exact hchosen (ha.2.symm.trans ha.1.2)
      have hmem : chosen ∈ k :: rest ↔ chosen ∈ rest := by
        rw [List.mem_cons]
        exact or_iff_right fun h => hchosen h.symm
      rw [hnone, List.nil_append]
      simp only [hmem]

end Grouping

/-- The candidates of a scan by their chains, in the order in which they stand in its file. -/
def groupsOf (cs : List Classification) (t : ScanTally) : List Group :=
  (Json.sortedEntries t.candidates.entries).map fun e => groupOf cs e.1

variable {cs : List Classification} {t : ScanTally}

theorem mem_sortedEntries {e : String × List String}
    (he : e ∈ Json.sortedEntries t.candidates.entries) : e ∈ t.candidates.entries :=
  (List.mergeSort_perm _ _).mem_iff.1 he

theorem exists_of_entry (h : t.Lists cs) {e : String × List String}
    (he : e ∈ Json.sortedEntries t.candidates.entries) : ∃ c ∈ cs, toString c.chainId = e.1 :=
  h.keys e.1 (List.mem_map_of_mem (mem_sortedEntries he))

theorem nodup_sortedKeys (h : t.Lists cs) :
    ((Json.sortedEntries t.candidates.entries).map (·.1)).Nodup := by
  have hkeys : (t.candidates.entries.map (·.1)).Nodup := h.nodup
  exact ((List.mergeSort_perm t.candidates.entries _).map (·.1)).nodup_iff.2 hkeys

theorem map_chain_groupsOf (h : t.Lists cs) (hspelled : Spelled cs) :
    (groupsOf cs t).map Group.chain = (Json.sortedEntries t.candidates.entries).map (·.1) := by
  rw [groupsOf, List.map_map]
  exact List.map_congr_left fun e he => chain_groupOf hspelled (exists_of_entry h he)

/-- The file of a scan holds its candidates by their chains. -/
theorem map_entry_groupsOf (h : t.Lists cs) (hspelled : Spelled cs) :
    Json.listsValue (Json.sortedEntries t.candidates.entries) = (groupsOf cs t).map Group.entry := by
  rw [groupsOf, Json.listsValue, List.map_map]
  refine List.map_congr_left fun e he => ?_
  have hitems := h.items e.1
  unfold Ledger.items at hitems
  rw [Ledger.get?_of_mem h.nodup (mem_sortedEntries he), Option.getD_some] at hitems
  rw [Function.comp_apply, Group.entry, chain_groupOf hspelled (exists_of_entry h he), hitems,
    List.map_map]
  rfl

theorem covered_groupsOf (h : t.Lists cs) : ∀ c ∈ cs, toString c.chainId ∈
    (Json.sortedEntries t.candidates.entries).map (·.1) := by
  intro c hc
  have hmem : toString c.chainId ∈ t.candidates.keys := by
    refine Ledger.mem_keys_of_items fun hnil => ?_
    rw [h.items, List.map_eq_nil_iff, List.filter_eq_nil_iff] at hnil
    exact hnil c hc (beq_iff_eq.2 rfl)
  exact ((List.mergeSort_perm t.candidates.entries _).map (·.1)).mem_iff.2 hmem

theorem flatMap_members_groupsOf (cs : List Classification) (t : ScanTally) :
    (groupsOf cs t).flatMap Group.members =
      ((Json.sortedEntries t.candidates.entries).map (·.1)).flatMap fun chain =>
        cs.filter fun c => toString c.chainId == chain := by
  rw [groupsOf, List.flatMap_map, List.flatMap_map]
  rfl

theorem members_groupsOf_perm (h : t.Lists cs) : ((groupsOf cs t).flatMap Group.members).Perm cs := by
  rw [flatMap_members_groupsOf]
  exact flatMap_filter_perm _ (nodup_sortedKeys h) (covered_groupsOf h)

/-- The resolution has counted the candidates `cs` of a scan, each under the names of its patterns or
in the registry of diamonds. -/
structure CountsAll (cs : List Classification) (first : ScanTally) (chains : List String)
    (last : Resolve α) : Prop where
  completed : last.completed = true
  interrupted : last.interrupted = false
  processed : last.task.tally.processed = first.counts.values.sum
  skipped : last.task.progress.skipped = 0
  chains : last.task.tally.chains = chains
  types : ∀ label, last.task.tally.types.count label =
    cs.countP fun c => !c.isDiamond && c.label == label
  diamonds : ∀ chain, last.task.tally.diamonds.items chain =
    (cs.filter fun c => c.isDiamond && toString c.chainId == chain).map (·.address)

/-- The resolution has skipped every candidate of a scan. -/
structure SkipsAll (first : ScanTally) (last : Resolve α) : Prop where
  completed : last.completed = true
  processed : last.task.tally.processed = 0
  skipped : last.task.progress.skipped = first.counts.values.sum

variable {holds : List Bool → List Post → Prop} {start last : Resolve α} {total : Nat} {results : Results}

/-- A resolution that has worked on the candidates of a scan has counted all of them exactly when every
analysis has returned. -/
theorem Resolving.countsAll_iff (h : t.Lists cs) (hspelled : Spelled cs)
    (hresults : results.map (·.1) = (groupsOf cs t).flatMap Group.members)
    (hlast : Resolving start total holds ((groupsOf cs t).map Group.chain) results last)
    (hcompleted : last.completed = true) :
    CountsAll cs t ((Json.listsValue (Json.sortedEntries t.candidates.entries)).map (·.1)) last ↔
      ∀ r ∈ results.returned, r = true := by
  refine ⟨fun hcounts => ?_, fun hall => ?_⟩
  · exact Results.skipped_eq_zero_iff.1 (Int.ofNat_inj.1 (hlast.skipped.symm.trans hcounts.skipped))
  have hperm := members_groupsOf_perm h
  have hcounts := hlast.counts
  rw [Results.counted_of_returned hall, hresults] at hcounts
  refine ⟨hcompleted, hlast.interrupted, ?_, ?_, ?_, fun label => ?_, fun chain => ?_⟩
  · rw [h.total, ← hperm.length_eq]
    exact hcounts.processed
  · rw [hlast.skipped, Results.skipped_eq_zero_iff.2 hall]
    rfl
  · rw [hcounts.chains, map_chain_groupsOf h hspelled, Json.listsValue, List.map_map]
    rfl
  · rw [← hperm.countP_eq]
    exact hcounts.types label
  · rw [hcounts.diamonds chain, flatMap_members_groupsOf,
      filter_flatMap_filter Classification.isDiamond chain cs _ (nodup_sortedKeys h)]
    split
    · rfl
    · rename_i hnone
      rw [List.filter_eq_nil_iff.2]
      intro c hc hchosen
      rw [Bool.and_eq_true, beq_iff_eq] at hchosen
      exact hnone (hchosen.2 ▸ covered_groupsOf h c hc)

theorem Resolving.skipsAll (h : t.Lists cs)
    (hresults : results.map (·.1) = (groupsOf cs t).flatMap Group.members)
    (hlast : Resolving start total AllFailed ((groupsOf cs t).map Group.chain) results last)
    (hcompleted : last.completed = true) : SkipsAll t last := by
  have hprocessed := hlast.counts.processed
  rw [Results.counted_of_failed hlast.holds] at hprocessed
  refine ⟨hcompleted, hprocessed, ?_⟩
  rw [hlast.skipped, Results.skipped_of_failed hlast.holds, h.total,
    ← (members_groupsOf_perm h).length_eq, ← hresults, List.length_map]

end Resolve

namespace Scan

def candidatesFile : String := "multi-proxy-contracts.json"

/-- A complete scan leaves a file from which its candidates are read back. -/
theorem Completed.file {out : Outside α} {batch : Nat} {start last : Scan α}
    (h : Completed out batch start last) (hnodup : last.task.tally.candidates.keys.Nodup) :
    ∃ text, last.journal.disk.get? (start.task.folder.path ++ [candidatesFile]) =
        some (.file text) ∧
      Json.ofFile? text = some (.obj (Json.listsValue
        (Json.sortedEntries last.task.tally.candidates.entries))) := by
  obtain ⟨docs, hdocs, hholds⟩ := h.saved
  rw [← h.tally] at hdocs
  obtain ⟨stats, -, rfl⟩ : ∃ stats, last.task.tally.stats = .ok stats ∧
      last.task.tally.documents stats = docs := by
    unfold ScanTally.artifacts at hdocs
    cases hstats : last.task.tally.stats with
    | error e =>
      rw [hstats] at hdocs
      cases hdocs
    | ok stats =>
      rw [hstats] at hdocs
      exact ⟨stats, rfl, Except.ok.inj hdocs⟩
  have hmem : (candidatesFile, Json.listsDocument last.task.tally.candidates.entries) ∈
      last.task.tally.documents stats := List.mem_cons_of_mem _ List.mem_cons_self
  obtain ⟨text, htext, hget⟩ := hholds.files _ hmem
  exact ⟨text, hget, Json.ofFile?_render_lists hnodup htext⟩

theorem Completed.lists {out : Outside α} {batch : Nat} {start last : Scan α}
    (h : Completed out batch start last) (hcalm : Calm out) (hfresh : Fresh start) :
    last.task.tally.Lists (candidates start.task.catalog out.rows) := by
  rw [h.tally, countedAt, List.take_length]
  have hempty : (counted start).tally.Lists [] := by
    change start.task.tally.Lists []
    rw [hfresh.tally]
    exact ScanTally.lists_empty
  exact Count.lists_ofRows hcalm.timed out.rows hempty

end Scan

namespace Resolve

theorem length_candidates_le (catalog : List Definition) (rows : List Row) :
    (candidates catalog rows).length ≤ rows.length :=
  (List.length_filter_le _ _).trans (List.length_filterMap_le _ _)

/-- A resolution of the candidates of a scan is complete, and it has worked on all of them. -/
theorem run_candidates [Seconds α] {rows : List Row} (hrows : Corpus.Consistent rows)
    (hfew : rows.length < 2 ^ 64) {t : ScanTally} (ht : t.Lists (candidates Catalog.builtIn rows))
    {out : Outside α} (hcalm : Calm out)
    (hcodes : ∀ chain key, out.codes chain key = Corpus.codesAt rows chain key) {start : Resolve α}
    (hfresh : Fresh start (groupsOf (candidates Catalog.builtIn rows) t))
    (hcatalog : start.task.catalog = Catalog.builtIn)
    (hnodes : ∀ c ∈ candidates Catalog.builtIn rows, Reachable start.task.nodes (toString c.chainId))
    {holds : List Bool → List Post → Prop}
    (hdecides : Decides out Catalog.builtIn start.task.rounds holds)
    (hholds : holds [] start.journal.posts) :
    ∃ results last, (Resolve.run out).go start = (.ok (), last) ∧ last.completed = true ∧
      results.map (·.1) = (groupsOf (candidates Catalog.builtIn rows) t).flatMap Group.members ∧
      Resolving start ((groupsOf (candidates Catalog.builtIn rows) t).flatMap Group.members).length
        holds ((groupsOf (candidates Catalog.builtIn rows) t).map Group.chain) results last := by
  have hspelled : Spelled (candidates Catalog.builtIn rows) :=
    fun c hc => (known_of_candidate hrows hcodes hc).2
  refine hfresh.run hcalm (hcatalog ▸ hdecides) hholds ?_ ?_ ?_
  · intro g hg
    obtain ⟨e, he, rfl⟩ := List.mem_map.1 hg
    have hchain := exists_of_entry ht he
    refine listed_groupOf hspelled (fun c hc => ?_) hchain ?_
    · rw [hcatalog]
      exact (known_of_candidate hrows hcodes hc).1
    · obtain ⟨c, hc, heq⟩ := hchain
      exact heq ▸ hnodes c hc
  · rw [map_chain_groupsOf ht hspelled]
    exact nodup_sortedKeys ht
  · rw [(members_groupsOf_perm ht).length_eq]
    exact Nat.lt_of_le_of_lt (length_candidates_le _ _) hfew

/-- The resolution of the candidates that a scan lists in its file agrees with the scan: with at most
1024 rounds it counts every candidate and skips none, whatever the nodes reply, exactly when no reply to
a message that it sent nests too deep, as none does without rounds. It skips every candidate when it
asks and all replies nest too deep, and with more than 1024 rounds when the nodes always ask to slow
down. -/
theorem run_agrees_with_scan {first second : Outside Float} (hfirst : Scan.Calm first)
    (huntold : ∀ n, first.stop n = false) (hsecond : Calm second)
    (hrows : Corpus.Consistent first.rows)
    (hcodes : ∀ chain key, second.codes chain key = Corpus.codesAt first.rows chain key)
    (folder : Folder) {batch : Nat} (hbatch : 0 < batch) {step : Int} (hstep : step ≠ 0)
    {journal : Journal Float}
    (hstopped : journal.stopped = false)
    (hready : Snapshot.Ready journal.disk folder.path ScanTally.fileNames)
    {nodes : List (String × Json)}
    (hnodes : ∀ c ∈ candidates Catalog.builtIn first.rows, Reachable nodes (toString c.chainId))
    {folder' : Folder} {journal' : Journal Float} (hstopped' : journal'.stopped = false)
    (hready' : Snapshot.Ready journal'.disk folder'.path ResolutionTally.fileNames)
    (rounds : Int) (timeout interval : Float) :
    ∃ (task : ScanTask) (scanned : Scan Float) (text : String) (listed : List (String × Json)),
      Scan.start? Catalog.builtIn folder batch (.whole step) = .ok task ∧
      (Scan.run first).go ⟨false, false, task, journal⟩ = (.ok (), scanned) ∧
      scanned.completed = true ∧
      scanned.task.tally.Lists (candidates Catalog.builtIn first.rows) ∧
      scanned.journal.disk.get? (folder.path ++ [Scan.candidatesFile]) = some (.file text) ∧
      Json.ofFile? text = some (.obj listed) ∧
      let start : Resolve Float := ⟨false, false,
        { folder := folder', candidates := listed, nodes, rounds, timeout, interval }, journal'⟩
      (rounds ≤ 1024 → (∀ sent p, (second.reply sent p).delivery.Plain) →
        ∃ last, (Resolve.run second).go start = (.ok (), last) ∧ last.completed = true ∧
          (CountsAll (candidates Catalog.builtIn first.rows) scanned.task.tally (listed.map (·.1)) last ↔
            ¬ second.Sinks journal'.posts last.journal.posts) ∧
          (second.Sinks journal'.posts last.journal.posts → 0 < rounds)) ∧
      (0 < rounds → (∀ sent p, ∃ reason, (second.reply sent p).delivery.TooDeep reason) →
        ∃ last, (Resolve.run second).go start = (.ok (), last) ∧ SkipsAll scanned.task.tally last) ∧
      (1024 < rounds → (∀ sent p, (second.reply sent p).delivery.Busy) →
        ∃ last, (Resolve.run second).go start = (.ok (), last) ∧ SkipsAll scanned.task.tally last) := by
  obtain ⟨task, htask, hfresh, hcatalog, hfolder, -⟩ :=
    Scan.exists_fresh Catalog.builtIn folder hbatch hstep hready
  have htold : ∀ k < first.rows.length, Scan.told first ⟨false, false, task, journal⟩ k = false := by
    intro k _
    rw [Scan.told, huntold, hstopped]
    rfl
  obtain ⟨scanned, hscanned⟩ := hfresh.completed_of_untold hfirst htold
  have hlists := hscanned.lists hfirst hfresh
  rw [hcatalog] at hlists
  obtain ⟨text, hget, hvalue⟩ := hscanned.file hlists.nodup
  rw [hfolder] at hget
  refine ⟨task, scanned, text, _, htask, hscanned.run, hscanned.completed, hlists, hget, hvalue, ?_⟩
  intro start
  have hspelled : Spelled (candidates Catalog.builtIn first.rows) :=
    fun c hc => (known_of_candidate hrows hcodes hc).2
  have hstart : Fresh start
      (groupsOf (candidates Catalog.builtIn first.rows) scanned.task.tally) :=
    ⟨map_entry_groupsOf hlists hspelled, rfl, rfl, rfl, rfl, rfl, rfl, hstopped', hready'⟩
  have hnone : AllFailed [] journal'.posts := fun _ h => absurd h List.not_mem_nil
  refine ⟨fun hrounds hplain => ?_, fun hpos hdeep => ?_, fun hrounds hbusy => ?_⟩
  · have hpaced : ∀ round ≤ rounds.toNat, Pacing.Paced Float round :=
      fun round hround => Pacing.paced_float_iff.2 (by omega)
    obtain ⟨results, last, hgo, hcompleted, hresults, hlast⟩ := run_candidates hrows hfirst.few hlists
      hsecond hcodes hstart rfl hnodes (decides_of_paced hplain hpaced _ journal'.posts)
      (spared_nil second rounds _)
    exact ⟨last, hgo, hcompleted,
      (hlast.countsAll_iff hlists hspelled hresults hcompleted).trans hlast.holds.all_iff,
      hlast.holds.asks⟩
  · obtain ⟨results, last, hgo, hcompleted, hresults, hlast⟩ := run_candidates hrows hfirst.few hlists
      hsecond hcodes hstart rfl hnodes (decides_of_tooDeep hpos hdeep) hnone
    exact ⟨last, hgo, hlast.skipsAll hlists hresults hcompleted⟩
  · have hunpaced : ∃ round, 0 < round ∧ round ≤ rounds.toNat ∧ ¬ Pacing.Paced Float round :=
      ⟨1025, by decide, by omega, fun h => absurd (Pacing.paced_float_iff.1 h) (by decide)⟩
    obtain ⟨results, last, hgo, hcompleted, hresults, hlast⟩ := run_candidates hrows hfirst.few hlists
      hsecond hcodes hstart rfl hnodes (decides_of_unpaced hbusy hunpaced) hnone
    exact ⟨last, hgo, hlast.skipsAll hlists hresults hcompleted⟩

def oneRow : Row :=
  [("chain_id", .int 1), ("address", .str (String.ofList ('0' :: 'x' :: List.replicate 40 '1'))),
    ("code", .str "0x635c60da1b6359659e90f4")]

def oneContract : Outside Float where
  reply _ _ := ⟨0, .http 500 .empty⟩
  jitter _ := 0
  stopwatch _ := .real 0
  date _ := 0
  stop _ := false
  disturbance _ := none
  rows := [oneRow]
  codes := Corpus.codesAt [oneRow]
  flushFault _ := none

theorem run_agrees_with_scan_of_one_contract :
    ∃ (task : ScanTask) (scanned : Scan Float) (listed : List (String × Json))
      (last : Resolve Float),
      Scan.start? Catalog.builtIn ⟨["scan"], "scan"⟩ 100 (.whole 5000) = .ok task ∧
      (Scan.run oneContract).go ⟨false, false, task, { clock := 0 }⟩ = (.ok (), scanned) ∧
      (Resolve.run oneContract).go ⟨false, false,
        { folder := ⟨["out"], "out"⟩, candidates := listed, nodes := [("1", .str "http://rpc")]
          rounds := 3, timeout := 30, interval := 0 }, { clock := 0 }⟩ = (.ok (), last) ∧
      CountsAll (candidates Catalog.builtIn oneContract.rows) scanned.task.tally
        (listed.map (·.1)) last := by
  have hscan : Scan.Calm oneContract :=
    ⟨fun _ => rfl, fun _ => rfl, fun _ => ⟨0, rfl⟩, by decide⟩
  have hrows : Corpus.Consistent oneContract.rows := by
    refine ⟨fun row hrow => ?_, List.nodup_singleton _⟩
    obtain rfl := List.mem_singleton.1 hrow
    exact ⟨⟨1, rfl, by decide⟩, List.replicate 40 '1', rfl, rfl, by decide⟩
  have hnodes : ∀ c ∈ candidates Catalog.builtIn oneContract.rows,
      Reachable [("1", .str "http://rpc")] (toString c.chainId) := by
    intro c hc
    obtain ⟨⟨row, hrow, hdetected⟩, -⟩ := Scan.mem_candidates.1 hc
    obtain rfl := List.mem_singleton.1 hrow
    obtain ⟨record, hrecord, hclassified⟩ := Scan.detected?_eq_some_iff.1 hdetected
    obtain ⟨hidentity, -⟩ := Corpus.identity?_of_ofRow (hrows.proper _ hrow) hrecord
    have hchain : c.chainId = 1 := by
      rw [Classification.chainId_of_ofRecord hclassified]
      exact (congrArg Prod.fst (Option.some.inj hidentity)).symm
    rw [hchain]
    exact ⟨_, _, rfl, rfl, rfl⟩
  have hready : Snapshot.Ready {} ["scan"] ScanTally.fileNames :=
    Snapshot.ready_empty (by decide) (by decide)
  have hready' : Snapshot.Ready {} ["out"] ResolutionTally.fileNames :=
    Snapshot.ready_empty (by decide) (by decide)
  obtain ⟨task, scanned, text, listed, htask, hscanned, -, -, -, -, hcounts, -⟩ :=
    @run_agrees_with_scan oneContract oneContract hscan (fun _ => rfl)
      ⟨fun _ => rfl, fun _ => rfl, fun _ => rfl⟩ hrows (fun _ _ => rfl) ⟨["scan"], "scan"⟩ 100
      (by decide) 5000 (by decide) { clock := 0 } rfl hready [("1", .str "http://rpc")] hnodes
      ⟨["out"], "out"⟩ { clock := 0 } rfl hready' 3 30 0
  obtain ⟨last, hlast, -, hcounted, -⟩ := hcounts (by decide) (fun _ _ => .http _ _)
  exact ⟨task, scanned, listed, last, htask, hscanned, hlast,
    hcounted.2 (Outside.not_sinks_of_shallow fun _ _ _ => nofun)⟩

end Resolve

end ProxyCensus
