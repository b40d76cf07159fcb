import ProxyCensus.Proofs.Job.ScanBalance
import ProxyCensus.Proofs.Job.ScanCandidates
import ProxyCensus.Proofs.Tally.ScanOrder

/-!
# The order of the rows

Scans of the same contracts with other pages, on other disks and at other times. Main statement: what a
scan counts, and the first of its files, depend neither on the order of the rows nor on rows that cannot
be searched; only the candidates are listed in the order of their rows. And at every point of a scan
the contracts that were processed are those that were analyzed and those that were skipped.
-/

namespace ProxyCensus.Scan

open Document (SameText)

variable {α : Type} {catalog : List Definition}

/-- How a scan is to be run: what it meets, where it puts its files, how many rows a page has, how many
contracts there are between two messages, and the journal in which it writes. -/
structure Plan (α : Type) where
  out : Outside α
  folder : Folder
  batch : Nat
  step : Int
  journal : Journal α

namespace Plan

/-- Nothing comes in the way of the scan, and it is never told to stop. -/
structure Clear (p : Plan α) : Prop where
  batch : 0 < p.batch
  step : p.step ≠ 0
  calm : Calm p.out
  unstopped : ∀ n, p.out.stop n = false
  going : p.journal.stopped = false
  ready : Snapshot.Ready p.journal.disk p.folder.path ScanTally.fileNames

/-- The scan runs to its end and is complete. -/
def Ends (p : Plan α) (catalog : List Definition) (last : Scan α) : Prop :=
  ∃ task, start? catalog p.folder p.batch (.whole p.step) = .ok task ∧
    (run p.out).go ⟨false, false, task, p.journal⟩ = (.ok (), last) ∧ last.completed = true

/-- At their ends two scans have put the same text in the file of a name. -/
def SameFile (p p' : Plan α) (name : String) (last last' : Scan α) : Prop :=
  ∃ text, last.journal.disk.get? (p.folder.path ++ [name]) = some (.file text) ∧
    last'.journal.disk.get? (p'.folder.path ++ [name]) = some (.file text)

end Plan

theorem Count.untimed_ofRows {stopwatch : Nat → Decimal.Number}
    (htimed : ∀ n, ∃ x, stopwatch n = .real x)
    (rows : List Row) : ∀ {count : Count} {cs : List Classification},
      count.tally.untimed = ScanTally.ofContracts cs →
      (count.ofRows catalog stopwatch rows).tally.untimed =
        ScanTally.ofContracts (cs ++ rows.filterMap (detected? catalog)) := by
  induction rows with
  | nil =>
    intro count cs h
    rwa [List.filterMap_nil, List.append_nil]
  | cons row rest ih =>
    intro count cs h
    rcases @tally_add catalog stopwatch htimed count row with ⟨hrow, htally⟩ | ⟨c, x, hrow, htally⟩
    · rw [List.filterMap_cons_none hrow]
      exact ih (htally ▸ h)
    · rw [List.filterMap_cons_some hrow, List.append_cons]
      exact ih (htally ▸ ScanTally.untimed_record h c (.real x))

/-- A scan that has counted the rows of a corpus and put its files in a folder. -/
structure CountedAll (catalog : List Definition) (rows : List Row) (folder : Folder) (last : Scan α) :
    Prop where
  untimed : last.task.tally.untimed = ScanTally.ofContracts (rows.filterMap (detected? catalog))
  lists : last.task.tally.Lists (candidates catalog rows)
  files : ∃ stats, Snapshot.Holds last.journal.disk folder.path (last.task.tally.documents stats)

theorem Plan.Clear.exists_ends {p : Plan α} (h : p.Clear) (catalog : List Definition) :
    ∃ last, p.Ends catalog last ∧ CountedAll catalog p.out.rows p.folder last := by
  obtain ⟨task, htask, hfresh, hcatalog, hfolder, -⟩ :=
    exists_fresh catalog p.folder h.batch h.step h.ready
  obtain ⟨last, hlast⟩ := hfresh.completed_of_untold h.calm fun k _ => by
    rw [told, h.unstopped, Bool.false_or]
    exact h.going
  have htally : last.task.tally =
      (Count.ofRows catalog p.out.stopwatch ⟨{}, p.journal.stopwatches⟩ p.out.rows).tally := by
    rw [hlast.tally, countedAt, List.take_length, ← hcatalog, ← hfresh.tally]
    rfl
  obtain ⟨docs, hdocs, hholds⟩ := hlast.saved
  rw [← hlast.tally, ScanTally.artifacts] at hdocs
  refine ⟨last, ⟨task, htask, hlast.run, hlast.completed⟩, ?_, ?_, ?_⟩
  · rw [htally]
    exact @Count.untimed_ofRows catalog _ h.calm.timed p.out.rows ⟨{}, p.journal.stopwatches⟩ [] rfl
  · rw [htally]
    exact @Count.lists_ofRows catalog _ h.calm.timed p.out.rows ⟨{}, p.journal.stopwatches⟩ []
      ScanTally.lists_empty
  · cases hstats : last.task.tally.stats with
    | error e =>
      rw [hstats] at hdocs
      cases hdocs
    | ok stats =>
      rw [hstats] at hdocs
      obtain rfl := Except.ok.inj hdocs
      exact ⟨stats, hfolder ▸ hholds⟩

section Files

variable {p p' : Plan α} {rows rows' : List Row} {last last' : Scan α}

/-- Two scans have the same file when what they write in it has the same text. -/
theorem CountedAll.sameFile (h : CountedAll catalog rows p.folder last)
    (h' : CountedAll catalog rows' p'.folder last') {name : String} (document : ScanTally → Document)
    (hname : ∀ t stats, (name, document t) ∈ t.documents stats)
    (hsame : SameText 0 (document last.task.tally) (document last'.task.tally)) :
    p.SameFile p' name last last' := by
  obtain ⟨stats, hholds⟩ := h.files
  obtain ⟨stats', hholds'⟩ := h'.files
  obtain ⟨text, htext, hget⟩ := hholds.files _ (hname _ stats)
  obtain ⟨text', htext', hget'⟩ := hholds'.files _ (hname _ stats')
  have hrender := hsame.render htext
  obtain rfl := Except.ok.inj (hrender.symm.trans htext')
  exact ⟨text, hget, hget'⟩

/-- The first file does not show in which order the contracts were counted. -/
theorem CountedAll.sameFile_results (h : CountedAll catalog rows p.folder last)
    (h' : CountedAll catalog rows' p'.folder last')
    (hperm : (rows.filterMap (detected? catalog)).Perm (rows'.filterMap (detected? catalog))) :
    p.SameFile p' "results.json" last last' := by
  refine h.sameFile h' ScanTally.results (fun t stats => ?_) ?_
  · rw [t.documents_eq]
    exact List.mem_cons_self
  have hsame := ScanTally.sameText_results hperm
  rwa [← h.untimed, ← h'.untimed] at hsame

theorem CountedAll.sameFile_listing (h : CountedAll catalog rows p.folder last)
    (h' : CountedAll catalog rows' p'.folder last')
    (hrows : rows.filterMap (detected? catalog) = rows'.filterMap (detected? catalog)) :
    p.SameFile p' "multi-proxy-contracts.json" last last' := by
  refine h.sameFile h' ScanTally.listing (fun t stats => ?_) ?_
  · rw [t.documents_eq]
    exact List.mem_cons_of_mem _ List.mem_cons_self
  have hsame : last.task.tally.untimed.listing = last'.task.tally.untimed.listing := by
    rw [h.untimed, h'.untimed, hrows]
  exact fun text htext => hsame ▸ htext

end Files

theorem filterMap_filter_detected? (catalog : List Definition) (rows : List Row) :
    (rows.filter fun row => (detected? catalog row).isSome).filterMap (detected? catalog) =
      rows.filterMap (detected? catalog) := by
  rw [List.filterMap_filter]
  congr 1
  funext row
  cases detected? catalog row <;> rfl

/-- What a scan finds depends on which rows there are. Two scans in whose way nothing comes, with pages of
any size, both run to their end. When the one has the rows of the other in any order, their first files
are the same, and they list the same candidates on every chain; in the same order when the rows are. When
the one has the rows of the other that can be searched, the first file and that of the candidates are the
same. And at every point of any scan the contracts processed are those that were analyzed and those that
were skipped. -/
theorem order_of_rows_immaterial (catalog : List Definition) {p p' : Plan α} (h : p.Clear)
    (h' : p'.Clear) :
    (∃ last last', p.Ends catalog last ∧ p'.Ends catalog last' ∧
      (p.out.rows.Perm p'.out.rows → p.SameFile p' "results.json" last last' ∧
        ∀ chain, (last.task.tally.candidates.items chain).Perm
          (last'.task.tally.candidates.items chain)) ∧
      (p.out.rows = p'.out.rows → p.SameFile p' "multi-proxy-contracts.json" last last' ∧
        last.task.tally.candidates = last'.task.tally.candidates) ∧
      (p'.out.rows = p.out.rows.filter (fun row => (detected? catalog row).isSome) →
        p.SameFile p' "results.json" last last' ∧
          p.SameFile p' "multi-proxy-contracts.json" last last')) ∧
    ∀ (out : Outside α) (folder : Folder) (batch : Int) (step : Decimal.Number) (task : ScanTask)
      (journal : Journal α), start? catalog folder batch step = .ok task →
        ∀ job, Passes out ⟨false, false, task, journal⟩ job → Balanced job := by
  refine ⟨?_, fun out folder batch step task journal htask job =>
    Passes.keeps_balance (surplus_of_start? htask journal)⟩
  obtain ⟨last, hends, hlast⟩ := h.exists_ends catalog
  obtain ⟨last', hends', hlast'⟩ := h'.exists_ends catalog
  refine ⟨last, last', hends, hends', fun hperm => ⟨?_, fun chain => ?_⟩, fun hrows => ⟨?_, ?_⟩,
    fun hrows => ?_⟩
  · exact hlast.sameFile_results hlast' (hperm.filterMap _)
  · rw [hlast.lists.items, hlast'.lists.items]
    exact ((((hperm.filterMap _).filter _).filter _).map _)
  · exact hlast.sameFile_listing hlast' (by rw [hrows])
  · have huntimed := hlast.untimed
    rw [hrows, ← hlast'.untimed] at huntimed
    change last.task.tally.untimed.candidates = last'.task.tally.untimed.candidates
    rw [huntimed]
  · have hsame := filterMap_filter_detected? catalog p.out.rows
    rw [← hrows] at hsame
    exact ⟨hlast.sameFile_results hlast' (hsame ▸ .refl _), hlast.sameFile_listing hlast' hsame.symm⟩

def rowOf (address code : String) : Row :=
  [("chain_id", .int 1), ("address", .str address), ("code", .str code)]

def planOf (rows : List Row) (batch : Nat) : Plan Unit where
  out := { threeContracts with stop := fun _ => false, rows }
  folder := ⟨["out"], "out"⟩
  batch
  step := 5000
  journal := { clock := () }

theorem clear_planOf {rows : List Row} (hrows : rows.length < 2 ^ 64) {batch : Nat} (hbatch : 0 < batch) :
    (planOf rows batch).Clear where
  batch := hbatch
  step := (by decide : (5000 : Int) ≠ 0)
  calm := ⟨fun _ => rfl, fun _ => rfl, fun _ => ⟨0, rfl⟩, hrows⟩
  unstopped _ := rfl
  going := rfl
  ready := (Snapshot.ready_empty (by decide) (by decide) : Snapshot.Ready {} ["out"] ScanTally.fileNames)

theorem order_of_rows_immaterial_of_four :
    let a := rowOf "0x1111111111111111111111111111111111111111" "0x635c60da1b6359659e90f4"
    let b := rowOf "0x2222222222222222222222222222222222222222" "0x635c60da1b6359659e90f4"
    let nowhere := rowOf "0x" "0x6001"
    let garbled := rowOf "0x3333333333333333333333333333333333333333" "0xzz"
    (∃ last last', (planOf [a, nowhere, b, garbled] 2).Ends Catalog.builtIn last ∧
      (planOf [garbled, b, a, nowhere] 3).Ends Catalog.builtIn last' ∧
      (planOf [a, nowhere, b, garbled] 2).SameFile (planOf [garbled, b, a, nowhere] 3) "results.json"
        last last') ∧
    ∃ last last', (planOf [a, nowhere, b, garbled] 2).Ends Catalog.builtIn last ∧
      (planOf [a, b] 1).Ends Catalog.builtIn last' ∧
      (planOf [a, nowhere, b, garbled] 2).SameFile (planOf [a, b] 1) "multi-proxy-contracts.json"
        last last' := by
  intro a b nowhere garbled
  have hall := @clear_planOf [a, nowhere, b, garbled] (by decide) 2 (by decide)
  have hperm : [a, nowhere, b, garbled].Perm [garbled, b, a, nowhere] :=
    (@List.perm_append_comm _ [a, nowhere, b] [garbled]).trans
      ((@List.perm_append_comm _ [a, nowhere] [b]).cons garbled)
  have hsearched : [a, b] =
      [a, nowhere, b, garbled].filter fun row => (detected? Catalog.builtIn row).isSome := by
    have ha : (detected? Catalog.builtIn a).isSome = true := by decide +kernel
    have hb : (detected? Catalog.builtIn b).isSome = true := by decide +kernel
    have hnowhere : (detected? Catalog.builtIn nowhere).isSome = false := by decide +kernel
    have hgarbled : (detected? Catalog.builtIn garbled).isSome = false := by decide +kernel
    simp [ha, hb, hnowhere, hgarbled]
  obtain ⟨⟨last, last', hends, hends', hresults, -⟩, -⟩ :=
    order_of_rows_immaterial Catalog.builtIn hall
    (@clear_planOf [garbled, b, a, nowhere] (by decide) 3 (by decide))
  obtain ⟨⟨last₁, last₁', hends₁, hends₁', -, -, hsame⟩, -⟩ :=
    order_of_rows_immaterial Catalog.builtIn hall
    (@clear_planOf [a, b] (by decide) 1 (by decide))
  exact ⟨⟨last, last', hends, hends', (hresults hperm).1⟩, last₁, last₁', hends₁, hends₁',
    (hsame hsearched).2⟩

end ProxyCensus.Scan
