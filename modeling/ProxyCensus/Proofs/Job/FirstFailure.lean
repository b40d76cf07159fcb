import ProxyCensus.Proofs.Job.ResolveAttempts
import ProxyCensus.Proofs.Job.ScanZeroStep

/-!
# The first failure of a job

Main statement: whatever comes in the way of a scan or a resolution, and whatever the nodes reply, its
first run raises the first failure of its questions and its flushes, the last flush is made in any case,
and the folder shows the last flush that succeeded.
-/

namespace ProxyCensus.Job

open Snapshot (Unblocked)

variable {α : Type} [Seconds α]

/-- The first run of a scan whose messages come every so many contracts, a number other than zero, and
that of a resolution of listed addresses raise the first failure of their attempts, the last of which is
to write their files. -/
theorem first_failure_surfaces (out : Outside α) (catalog : List Definition) (folder : Folder)
    (journal : Journal α) :
    (∀ (batch step : Int) (task : ScanTask), Scan.start? catalog folder batch (.whole step) = .ok task →
      step ≠ 0 → out.rows.length < 2 ^ 64 →
      Surfaces out folder ScanTally.fileNames Scan.artifacts
        (Scan.WholeRows out ⟨false, false, task, journal⟩)
        (Scan.begin out) (Scan.work out) (Scan.finish out) ⟨false, false, task, journal⟩) ∧
    ∀ (listed : List (String × List String)) (urls : List (String × String)) (rounds : Int)
      (timeout : Float) (interval : α), Resolve.listedCount listed < 2 ^ 64 →
      let task : ResolveTask α := {
        catalog, folder, rounds, timeout, interval
        candidates := Resolve.listing listed
        nodes := Resolve.nodesAt urls }
      Surfaces out folder ResolutionTally.fileNames Resolve.artifacts
        (Resolve.WholeStops out catalog (Resolve.planOf task.nodes listed))
        (Resolve.begin out) (Resolve.work out) (Resolve.finish out) ⟨false, false, task, journal⟩ := by
  constructor
  · intro batch step task htask hne hfew
    exact Scan.surfaces htask hne out hfew journal
  · intro listed urls rounds timeout interval hfew task
    have htask : task = {
        catalog := task.catalog, folder := task.folder
        candidates := Resolve.listing listed, nodes := Resolve.nodesAt urls
        rounds := task.rounds, timeout := task.timeout, interval := task.interval } := rfl
    exact Resolve.surfaces htask hfew out journal

/-- A corpus of one contract that answers, and a disk that accepts every flush. -/
def answered : Outside Float where
  reply _ _ := ⟨0, .http 500 .empty⟩
  jitter _ := 0
  stopwatch _ := .real 0
  date _ := 0
  stop _ := false
  disturbance _ := none
  rows := [[("chain_id", .int 1), ("address", .str "0x1111111111111111111111111111111111111111"),
    ("code", .str "0x00")]]
  codes _ _ := [.str "0x00"]
  flushFault _ := none

/-- The same corpus, but the first question to it fails. -/
def unanswered : Outside Float :=
  { answered with disturbance := fun n => if n = 0 then some (.fault (.database "gone")) else none }

theorem first_failure_surfaces_of_unanswered :
    ∃ (scan : ScanTask) (resolve : ResolveTask Float),
      Scan.start? Catalog.builtIn ⟨["out"], "out"⟩ 100 (.whole 5000) = .ok scan ∧ (5000 : Int) ≠ 0 ∧
      unanswered.rows.length < 2 ^ 64 ∧
      Surfaces unanswered ⟨["out"], "out"⟩ ScanTally.fileNames Scan.artifacts
        (Scan.WholeRows unanswered ⟨false, false, scan, { clock := 0 }⟩)
        (Scan.begin unanswered) (Scan.work unanswered) (Scan.finish unanswered)
        ⟨false, false, scan, { clock := 0 }⟩ ∧
      resolve.candidates = [("1", .arr [.str "0x1111111111111111111111111111111111111111"])] ∧
      Resolve.listedCount [("1", ["0x1111111111111111111111111111111111111111"])] < 2 ^ 64 ∧
      Surfaces unanswered ⟨["out"], "out"⟩ ResolutionTally.fileNames Resolve.artifacts
        (Resolve.WholeStops unanswered Catalog.builtIn (Resolve.planOf resolve.nodes
          [("1", ["0x1111111111111111111111111111111111111111"])]))
        (Resolve.begin unanswered) (Resolve.work unanswered) (Resolve.finish unanswered)
        ⟨false, false, resolve, { clock := 0 }⟩ ∧
      Unblocked ["out"] ScanTally.fileNames {} ∧ Unblocked ["out"] ResolutionTally.fileNames {} := by
  obtain ⟨hscan, hresolve⟩ :=
    first_failure_surfaces unanswered Catalog.builtIn ⟨["out"], "out"⟩ { clock := (0 : Float) }
  refine ⟨_, _, rfl, by decide, by decide, hscan 100 5000 _ rfl (by decide) (by decide), rfl,
    by decide, hresolve [("1", ["0x1111111111111111111111111111111111111111"])] [("1", "http://rpc")]
      3 30 0 (by decide), ?_, ?_⟩
  · exact Snapshot.unblocked_of_straight (by decide) (by decide) fun _ _ => rfl
  · exact Snapshot.unblocked_of_straight (by decide) (by decide) fun _ _ => rfl

/-- A scan whose messages come every zero contracts raises a failure that is none of its attempts: the
corpus answers its question, and its only flush succeeds. -/
theorem raises_without_failed_attempt : ∃ (task : ScanTask) (last : Scan Float),
    Scan.start? Catalog.builtIn ⟨["out"], "out"⟩ 100 (.whole 0) = .ok task ∧
    (∀ n, answered.disturbance n = none) ∧
    (Scan.run answered).go ⟨false, false, task, { clock := 0 }⟩ = (.error .divisionByZero, last) ∧
    last.journal.queries.size = 1 ∧ last.journal.flushCalls = 1 ∧ last.journal.flushed = 1 := by
  have hcalm : Scan.Calm answered :=
    ⟨fun _ => rfl, fun _ => rfl, fun _ => ⟨0, rfl⟩, by decide⟩
  have hready : Snapshot.Ready {} ["out"] ScanTally.fileNames :=
    Snapshot.ready_empty (by decide) (by decide)
  obtain ⟨last, hrun⟩ := @Scan.run_of_step_zero Float answered hcalm (fun _ => rfl) _ [] rfl
    Catalog.builtIn ⟨["out"], "out"⟩ 100 _ rfl { clock := 0 } rfl hready
  exact ⟨_, last, rfl, fun _ => rfl, hrun⟩

end ProxyCensus.Job
