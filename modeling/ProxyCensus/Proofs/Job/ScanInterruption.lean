import ProxyCensus.Proofs.Job.Marks
import ProxyCensus.Proofs.Job.ScanPages

/-!
# Interrupting a scan

A scan that is told to stop keeps exactly the rows before: they are what its tally has counted and
what its files say, and after it has noticed it writes its files once. A scan that is not told to
stop before its last row counts all rows and is complete.
-/

namespace ProxyCensus.Scan

variable {α : Type} {out : Outside α} {start job : Scan α} {rows : Nat} {queries : List Query}
  {flushed : List Nat}

/-- A scan that has just been set up. -/
structure Fresh (start : Scan α) : Prop where
  tally : start.task.tally = {}
  processed : start.task.progress.processed = 0
  step : ∃ n : Int, start.task.progress.itemStep = .whole n ∧ n ≠ 0
  interrupted : start.interrupted = false
  completed : start.completed = false
  ready : Snapshot.Ready start.journal.disk start.task.folder.path ScanTally.fileNames

theorem exists_fresh (catalog : List Definition) (folder : Folder) {batch : Nat} (hbatch : 0 < batch)
    {step : Int} (hstep : step ≠ 0) {journal : Journal α}
    (hready : Snapshot.Ready journal.disk folder.path ScanTally.fileNames) :
    ∃ task : ScanTask, start? catalog folder batch (.whole step) = .ok task ∧
      Fresh (⟨false, false, task, journal⟩ : Scan α) ∧ task.catalog = catalog ∧
      task.folder = folder ∧ task.batch = batch := by
  unfold start?
  rw [dif_pos (by simpa using hbatch)]
  exact ⟨_, rfl, ⟨rfl, rfl, ⟨step, rfl, hstep⟩, rfl, rfl, hready⟩, rfl, rfl, rfl⟩

theorem Fresh.begin (h : Fresh start) (out : Outside α) :
    ∃ job, (Scan.begin out).go start = (.ok (), job) ∧ Going out start 0 [] [] job ∧
      job.completed = false := by
  refine ⟨_, rfl, ⟨⟨rfl, rfl, rfl, ?_, ⟨rfl, h.step⟩, ?_, rfl, ?_, rfl,
    ⟨[], ?_, .nil⟩, h.ready⟩,
    rfl, h.interrupted⟩, h.completed⟩
  · exact rfl
  · exact (Int.add_zero _).symm
  · exact (List.append_nil _).symm
  · exact (List.append_nil _).symm

theorem Fresh.within (h : Fresh start) : start.task.tally.Within 0 :=
  h.tally ▸ ScanTally.within_empty

theorem go_summarize {stats : Option DurationStats} (h : job.task.tally.stats = .ok stats) :
    ∃ logs, summarize.go job = (.ok (), { job with journal := { job.journal with logs := logs } }) := by
  unfold summarize
  rw [Act.go_bind, Act.go_state]
  dsimp only
  rw [h]
  exact ⟨_, rfl⟩

theorem Scanned.log (h : Scanned out start rows queries flushed job) (logs : Array LogRecord) :
    Scanned out start rows queries flushed
      { job with journal := { job.journal with logs := logs } } :=
  { h with counted := h.counted }

theorem Scanned.finish (h : Scanned out start rows queries flushed job) (hcalm : Calm out)
    (hfresh : Fresh start) (hrows : rows ≤ out.rows.length) :
    ∃ last, (Scan.finish out).go job = (.ok (), last) ∧
      Scanned out start rows queries (flushed ++ [rows]) last ∧
      Saved out start rows last.journal.disk ∧ last.interrupted = job.interrupted ∧
      last.completed = job.completed := by
  have hprocessed : job.task.progress.processed.natAbs < 2 ^ 255 := by
    have hfew := hcalm.few
    rw [h.processed, hfresh.processed]
    omega
  obtain ⟨dates, logs, hend⟩ := go_tracking_finish out hprocessed
  have hended : Scanned out start rows queries flushed { job with
      task := { job.task with progress := { job.task.progress with started := none } }
      journal := { job.journal with dates := dates, logs := logs } } :=
    { h with counted := h.counted, endless := ⟨h.endless.total, h.endless.step⟩ }
  obtain ⟨job₁, hgo₁, h₁, hsaved, -, hinterrupted, hcompleted⟩ := hended.flush hcalm hfresh.within
  obtain ⟨stats, hstats, -⟩ := (@Count.within_ofRows start.task.catalog out.stopwatch hcalm.timed
    (out.rows.take rows) (Scan.counted start) 0 hfresh.within).stats
  have htally : job₁.task.tally.stats = .ok stats := by
    rw [← hstats]
    exact congrArg (·.tally.stats) h₁.counted
  obtain ⟨logs₁, hsummary⟩ := go_summarize htally
  have hgo : (Scan.finish out).go job = Act.go (do
      let job ← Act.state
      if job.interrupted then
        Scan.log .warning s!"Corpus scan interrupted after {job.task.tally.analyzed} contracts" :
      Act (Scan α) Unit) { job₁ with journal := { job₁.journal with logs := logs₁ } } := by
    unfold Scan.finish
    rw [Act.go_bind, hend]
    dsimp only
    rw [Act.go_bind, Job.go_lastFlush hgo₁]
    change Act.go (summarize >>= _) job₁ = _
    rw [Act.go_bind, hsummary]
  rw [hgo, Act.go_bind, Act.go_state]
  dsimp only
  split
  · exact ⟨_, rfl, h₁.log _, hsaved, hinterrupted, hcompleted⟩
  · exact ⟨_, rfl, h₁.log _, hsaved, hinterrupted, hcompleted⟩

theorem Scanned.settle (h : Scanned out start rows queries flushed job) (completed : Bool) :
    Scanned out start rows queries flushed { job with completed := completed } :=
  { h with counted := h.counted }

/-- How a scan ends that is told to stop before the row of a number: `noticed` is the scan when it has
noticed, and `last` is the scan at its end. -/
structure Interrupted (out : Outside α) (batch : Nat) (start : Scan α) (k : Nat)
    (noticed last : Scan α) : Prop where
  work : Act.go (do begin out; work out) start = (.ok (), noticed)
  marked : noticed.interrupted = true
  run : (run out).go start = (.ok (), last)
  interrupted : last.interrupted = true
  completed : last.completed = false
  /-- The tally is that of the rows before. -/
  tally : last.task.tally = (countedAt out start k).tally
  queries : last.journal.queries.toList =
    start.journal.queries.toList ++ pageQueries batch (k / batch + 1)
  flushCalls : last.journal.flushCalls = start.journal.flushCalls + (k / batch + 1)
  /-- After it has noticed the scan writes its files once. -/
  lastFlush : last.journal.flushCalls = noticed.journal.flushCalls + 1
  saved : Saved out start k last.journal.disk
  /-- Before that it wrote its files after every full page. -/
  flushes : ∃ disks, last.journal.flushes.toList =
      start.journal.flushes.toList ++ disks.map some ∧
    List.Forall₂ (Saved out start) (pageEnds batch (k / batch) ++ [k]) disks

structure Completed (out : Outside α) (batch : Nat) (start last : Scan α) : Prop where
  run : (run out).go start = (.ok (), last)
  interrupted : last.interrupted = false
  completed : last.completed = true
  tally : last.task.tally = (countedAt out start out.rows.length).tally
  queries : last.journal.queries.toList =
    start.journal.queries.toList ++ pageQueries batch (out.rows.length / batch + 1)
  flushCalls : last.journal.flushCalls =
    start.journal.flushCalls + (out.rows.length / batch + 2)
  saved : Saved out start out.rows.length last.journal.disk

theorem length_pageEnds (batch pages : Nat) : (pageEnds batch pages).length = pages := by
  simp [pageEnds]

theorem Fresh.interrupted_of_told (hfresh : Fresh start) (hcalm : Calm out) {k : Nat}
    (hk : ToldFirst out start k) (hlt : k < out.rows.length) :
    ∃ noticed last, Interrupted out start.task.batch start k noticed last := by
  obtain ⟨job, hbegin, hgoing, -⟩ := hfresh.begin out
  obtain ⟨noticed, hpages, h, hnoticed, -⟩ :=
    scanPages_of_told hcalm hfresh.within job.task.batch_pos hk hlt hgoing
  rw [hgoing.batch] at h
  have hwork : Act.go (do Scan.begin out; work out) start = (.ok (), noticed) := by
    rw [Act.go_bind, hbegin]
    exact hpages
  obtain ⟨last, hfinish, hlast, hsaved, hinterrupted, hcomplete⟩ :=
    (h.settle !noticed.interrupted).finish hcalm hfresh (Nat.le_of_lt hlt)
  refine ⟨noticed, last, hwork, hnoticed, Job.go_run hwork hfinish, hinterrupted.trans hnoticed,
    ?_, congrArg Count.tally hlast.counted, hlast.queries, ?_, ?_, hsaved, hlast.flushes⟩
  · rw [hcomplete, hnoticed]
    rfl
  · rw [hlast.flushCalls, List.length_append, length_pageEnds]
    rfl
  · rw [hlast.flushCalls, h.flushCalls, List.length_append]
    rfl

theorem Fresh.work_of_untold (hfresh : Fresh start) (hcalm : Calm out)
    (htold : ∀ k < out.rows.length, told out start k = false) :
    ∃ begun worked, (Scan.begin out).go start = (.ok (), begun) ∧
      begun.task.batch = start.task.batch ∧ (Scan.work out).go begun = (.ok (), worked) ∧
      Scanned out start out.rows.length
        (pageQueries start.task.batch (out.rows.length / start.task.batch + 1))
        (pageEnds start.task.batch (out.rows.length / start.task.batch) ++ [out.rows.length])
        worked ∧
      worked.interrupted = false := by
  obtain ⟨begun, hbegin, hgoing, -⟩ := hfresh.begin out
  obtain ⟨worked, hpages, h, hworked, -⟩ :=
    scanPages_of_going hcalm hfresh.within begun.task.batch_pos htold hgoing
  rw [hgoing.batch] at h
  exact ⟨begun, worked, hbegin, hgoing.batch, hpages, h, hworked⟩

theorem Fresh.completed_of_untold (hfresh : Fresh start) (hcalm : Calm out)
    (htold : ∀ k < out.rows.length, told out start k = false) :
    ∃ last, Completed out start.task.batch start last := by
  obtain ⟨begun, worked, hbegin, -, hwork, h, hworked⟩ := hfresh.work_of_untold hcalm htold
  have hgo : Act.go (do Scan.begin out; work out) start = (.ok (), worked) := by
    rw [Act.go_bind, hbegin]
    exact hwork
  obtain ⟨last, hfinish, hlast, hsaved, hinterrupted, hcomplete⟩ :=
    (h.settle !worked.interrupted).finish hcalm hfresh (Nat.le_refl _)
  refine ⟨last, Job.go_run hgo hfinish, hinterrupted.trans hworked, ?_,
    congrArg Count.tally hlast.counted, hlast.queries, ?_, hsaved⟩
  · rw [hcomplete, hworked]
    rfl
  · rw [hlast.flushCalls, List.length_append, List.length_append, length_pageEnds]
    rfl

/-- A scan keeps exactly the rows before it is told to stop: it is interrupted, and what it has
counted and written is that of these rows; or it is not told to stop before any row, is complete, and
has counted all of them. Whatever comes in its way, it is never both. -/
theorem run_keeps_rows_before (catalog : List Definition) (folder : Folder) {batch : Nat}
    (hbatch : 0 < batch) {step : Int} (hstep : step ≠ 0) (hcalm : Calm out) {journal : Journal α}
    (hready : Snapshot.Ready journal.disk folder.path ScanTally.fileNames) :
    ∃ task : ScanTask, start? catalog folder batch (.whole step) = .ok task ∧
      (∀ k < out.rows.length, ToldFirst out ⟨false, false, task, journal⟩ k →
        ∃ noticed last, Interrupted out batch ⟨false, false, task, journal⟩ k noticed last) ∧
      ((∀ k < out.rows.length, told out ⟨false, false, task, journal⟩ k = false) →
        ∃ last, Completed out batch ⟨false, false, task, journal⟩ last) ∧
      ∀ out' : Outside α, ¬(((run out').go ⟨false, false, task, journal⟩).2.interrupted = true ∧
        ((run out').go ⟨false, false, task, journal⟩).2.completed = true) := by
  obtain ⟨task, htask, hfresh, -, -, rfl⟩ := exists_fresh catalog folder hbatch hstep hready
  refine ⟨task, htask, fun k hlt hk => ?_, fun htold => ?_, fun out' => run_marks out' rfl⟩
  · exact hfresh.interrupted_of_told hcalm hk hlt
  · exact hfresh.completed_of_untold hcalm htold

def threeContracts : Outside Unit where
  reply _ _ := ⟨(), .http 500 .empty⟩
  jitter _ := ()
  stopwatch _ := .real 0
  date _ := 0
  stop n := n == 2
  disturbance _ := none
  rows := ["0x1111111111111111111111111111111111111111",
    "0x2222222222222222222222222222222222222222",
    "0x3333333333333333333333333333333333333333"].map fun address =>
      [("chain_id", .int 1), ("address", .str address), ("code", .str "0x6001")]
  codes _ _ := []
  flushFault _ := none

theorem run_keeps_rows_before_third :
    ∃ (task : ScanTask) (noticed last : Scan Unit),
      start? Catalog.builtIn ⟨["out"], "out"⟩ 2 (.whole 5000) = .ok task ∧
      Interrupted threeContracts 2 ⟨false, false, task, { clock := () }⟩ 2 noticed last := by
  have hcalm : Calm threeContracts :=
    ⟨fun _ => rfl, fun _ => rfl, fun _ => ⟨0, rfl⟩, by decide⟩
  have hready : Snapshot.Ready {} ["out"] ScanTally.fileNames :=
    Snapshot.ready_empty (by decide) (by decide)
  obtain ⟨task, htask, hstop, -, -⟩ := @run_keeps_rows_before Unit threeContracts Catalog.builtIn
    ⟨["out"], "out"⟩ 2 (by decide) 5000 (by decide) hcalm { clock := () } hready
  have hfirst : ToldFirst threeContracts ⟨false, false, task, { clock := () }⟩ 2 := by
    refine ⟨rfl, fun i hi => ?_⟩
    change (0 + i == 2 || false) = false
    rw [Bool.or_false, beq_eq_false_iff_ne]
    omega
  obtain ⟨noticed, last, h⟩ := hstop 2 (by decide) hfirst
  exact ⟨task, noticed, last, htask, h⟩

end ProxyCensus.Scan
