import ProxyCensus.Proofs.Job.ScanCoverage

/-!
# The balance of a scan

A row counts as processed, and it is either skipped or analyzed. Main statement: at every point of a scan
the contracts that were processed are those that were analyzed and those that were skipped, whatever comes
in its way.
-/

namespace ProxyCensus.Scan

open Act (Keeps)

variable {α β γ : Type} {out : Outside α}

/-- By how much the contracts that were processed and not skipped exceed those that were analyzed. -/
def surplus (job : Scan α) : Int :=
  job.task.progress.processed - job.task.progress.skipped - job.task.tally.analyzed

theorem surplus_tracking {x : Act (Tracked α) β} (h : Keeps Tracked.counters x) :
    Keeps surplus (tracking x) := by
  refine .on h fun job t hcounters => ?_
  obtain ⟨hprocessed, hskipped⟩ := Prod.mk.inj hcounters
  unfold surplus
  rw [hprocessed, hskipped]

theorem surplus_track (skipped : Bool) (job : Scan α) :
    surplus ((tracking (Tracked.track 1 skipped)).go job).2 = surplus job + if skipped then 0 else 1 := by
  have hprogress : ((tracking (Tracked.track 1 skipped)).go job).2.task.progress =
      job.task.progress.add 1 skipped :=
    Tracked.progress_track ⟨job.task.progress, job.journal⟩ 1 skipped
  have htally : ((tracking (Tracked.track 1 skipped)).go job).2.task.tally = job.task.tally := rfl
  unfold surplus
  rw [hprogress, htally]
  dsimp only [Progress.add]
  split <;> omega

theorem analyzed_record (t : ScanTally) (c : Classification) (duration : Decimal.Number) :
    (t.record c duration).analyzed = t.analyzed + 1 := by
  unfold ScanTally.record ScanTally.recordCandidate
  split <;> rfl

theorem surplus_scanRow (out : Outside α) (row : Row) : Keeps surplus (scanRow out row) := by
  refine .bind (classify_keeps out (fun _ _ => rfl) row).outcome fun r => ?_
  cases r with
  | ok found =>
    intro job
    rw [Act.go_bind]
    change surplus ((tracking (Tracked.track 1 false)).go { job with
      task := { job.task with tally := job.task.tally.record found.1 found.2 } }).2 = _
    rw [surplus_track]
    unfold surplus
    rw [analyzed_record, if_neg Bool.false_ne_true]
    push_cast
    omega
  | error f =>
    refine .bind (reportRow_keeps (fun _ _ => rfl) row f) fun _ job => ?_
    rw [surplus_track]
    exact Int.add_zero _

theorem upheld_surplus (out : Outside α) : Upheld out surplus where
  unwritten _ _ := rfl
  shouldStop := Job.shouldStop_keeps (fun _ _ _ => rfl) out
  countPage page := by
    unfold countPage
    split
    · exact .pure _
    · exact fun _ => rfl
  scanRow := surplus_scanRow out

theorem surplus_begin (out : Outside α) : Keeps surplus (begin out) :=
  .bind .state fun _ => .bind (fun _ => rfl) fun _ => surplus_tracking (Tracked.start_keeps out none)

/-- A whole scan keeps the balance, however it ends. -/
theorem surplus_run (out : Outside α) : Keeps surplus (run out) := by
  have hfinish : Keeps surplus (finish out) :=
    finish_keeps_of out (fun _ _ => rfl) (surplus_tracking (Tracked.finish_keeps out))
  have hwork : Keeps surplus (do begin out; work out; Job.settle : Act (Scan α) Unit) :=
    (surplus_begin out).bind fun _ => (upheld_surplus out).work.bind fun _ => fun _ => rfl
  exact hwork.andFinally hfinish

/-- What is kept by everything that is done for a page is kept by every step. -/
theorem Upheld.act {part : Scan α → γ} (h : Upheld out part) (step : Step) :
    Keeps part (step.act out) := by
  cases step with
  | ask offset limit => exact h.unwritten.keeps _
  | countPage page => exact h.countPage page
  | heed => exact .bind h.shouldStop fun _ => .pure _
  | scanRow row => exact h.scanRow row
  | flush => exact flush_keeps out h.unwritten

/-- The contracts that were processed and not skipped are those that were analyzed. -/
def Balanced (job : Scan α) : Prop :=
  job.task.progress.processed - job.task.progress.skipped = job.task.tally.analyzed

/-- What a scan is while it runs: before and after its beginning, after every step, whether it succeeds or
not, and at its end. -/
inductive Passes (out : Outside α) (start : Scan α) : Scan α → Prop where
  | start : Passes out start start
  | begin {r : Except Failure Unit} {job : Scan α} (h : (Scan.begin out).go start = (r, job)) :
    Passes out start job
  | step {r : Except Failure Unit} {job job' : Scan α} {step : Step} (hjob : Passes out start job)
    (h : (step.act out).go job = (r, job')) : Passes out start job'
  | last : Passes out start ((run out).go start).2

/-- A new scan is balanced and stays so, whatever comes in its way. -/
theorem Passes.keeps_balance {out : Outside α} {start job : Scan α} (hstart : surplus start = 0)
    (h : Passes out start job) : Balanced job := by
  have hjob : surplus job = 0 := by
    induction h with
    | start => exact hstart
    | begin h => exact ((surplus_begin out).of_go h).trans hstart
    | step _ h ih => exact (((upheld_surplus out).act _).of_go h).trans ih
    | last => exact (surplus_run out start).trans hstart
  unfold surplus at hjob
  unfold Balanced
  omega

theorem surplus_of_start? {folder : Folder} {batch : Int} {step : Decimal.Number} {task : ScanTask}
    (h : start? catalog folder batch step = .ok task) (journal : Journal α) :
    surplus ⟨false, false, task, journal⟩ = 0 := by
  unfold start? at h
  split at h
  · obtain rfl := Except.ok.inj h
    rfl
  · cases h

end ProxyCensus.Scan
