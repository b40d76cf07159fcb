import ProxyCensus.Proofs.Job.ScanBalance
import ProxyCensus.Proofs.Job.Stored

/-!
# The books of a scan

What has become of the rows that a scan has gone through: each is counted or skipped. Main statement: when
a scan returns and was not interrupted, its books are those of all rows of the corpus, in their order,
whatever came in its way.
-/

namespace ProxyCensus.Scan

open Act (Keeps)
open Decimal (Number)

variable {α : Type} {out : Outside α} {catalog : List Definition} {stopwatch : Nat → Number}
  {rows : List Row} {t : ScanTally} {processed skipped : Int}

/-- The books of a scan: what it has counted after some rows, and how many of them it has processed and
skipped. A row is counted when its contract can be searched and timed, and skipped otherwise, and then the
tally stays as it was. -/
inductive Books (catalog : List Definition) (stopwatch : Nat → Number) :
    List Row → ScanTally → Int → Int → Prop where
  | empty : Books catalog stopwatch [] {} 0 0
  | counted {rows : List Row} {t : ScanTally} {processed skipped : Int}
    (h : Books catalog stopwatch rows t processed skipped) {row : Row} {readings : Nat}
    {c : Classification} {duration : Number}
    (hrow : (classified catalog stopwatch readings row).1 = .ok (c, duration)) :
    Books catalog stopwatch (rows ++ [row]) (t.record c duration) (processed + 1) skipped
  | skipped {rows : List Row} {t : ScanTally} {processed skipped : Int}
    (h : Books catalog stopwatch rows t processed skipped) {row : Row} {readings : Nat} {f : Failure}
    (hrow : (classified catalog stopwatch readings row).1 = .error f) :
    Books catalog stopwatch (rows ++ [row]) t (processed + 1) (skipped + 1)

theorem Books.processed_eq (h : Books catalog stopwatch rows t processed skipped) :
    processed = rows.length := by
  induction h with
  | empty => rfl
  | counted _ _ ih => simp [ih]
  | skipped _ _ ih => simp [ih]

/-- What was processed and not skipped is what was analyzed. -/
theorem Books.balance (h : Books catalog stopwatch rows t processed skipped) :
    processed - skipped = t.analyzed := by
  induction h with
  | empty => rfl
  | counted _ _ ih =>
    rw [analyzed_record]
    omega
  | skipped _ _ ih => omega

def account (job : Scan α) : List Definition × ScanTally × Int × Int :=
  (job.task.catalog, job.task.tally, job.task.progress.processed, job.task.progress.skipped)

/-- The books of a scan that has gone through some rows. -/
def Booked (out : Outside α) (rows : List Row) (job : Scan α) : Prop :=
  Books job.task.catalog out.stopwatch rows job.task.tally job.task.progress.processed
    job.task.progress.skipped

theorem Booked.of_account {job job' : Scan α} (h : Booked out rows job)
    (haccount : account job' = account job) : Booked out rows job' := by
  simp only [account, Prod.mk.injEq] at haccount
  obtain ⟨hcatalog, htally, hprocessed, hskipped⟩ := haccount
  unfold Booked
  rwa [hcatalog, htally, hprocessed, hskipped]

theorem unwritten_account : Job.Unwritten (account : Scan α → _) :=
  fun _ _ => rfl

theorem account_track (skipped : Bool) (job : Scan α) :
    account ((tracking (Tracked.track 1 skipped)).go job).2 =
      (job.task.catalog, job.task.tally, job.task.progress.processed + 1,
        if skipped then job.task.progress.skipped + 1 else job.task.progress.skipped) := by
  have hprogress : ((tracking (Tracked.track 1 skipped)).go job).2.task.progress =
      job.task.progress.add 1 skipped :=
    Tracked.progress_track ⟨job.task.progress, job.journal⟩ 1 skipped
  rw [account, hprogress]
  rfl

/-- A row is entered in the books, also when the progress fails to tell of it. -/
theorem Booked.scanRow {job : Scan α} (h : Booked out rows job) (row : Row) :
    Booked out (rows ++ [row]) ((Scan.scanRow out row).go job).2 := by
  unfold Scan.scanRow
  rw [Act.go_bind, Act.go_outcome, go_classify]
  rcases hrow : classified job.task.catalog out.stopwatch job.journal.stopwatches row with ⟨r, readings⟩
  have hresult := congrArg Prod.fst hrow
  cases r with
  | ok found =>
    obtain ⟨c, duration⟩ := found
    have hcounted : Booked out (rows ++ [row]) { job with
        task := { job.task with
          tally := job.task.tally.record c duration
          progress := job.task.progress.add 1 false } } :=
      Books.counted h hresult
    refine hcounted.of_account ?_
    exact account_track false { job with
      task := { job.task with tally := job.task.tally.record c duration }
      journal := { job.journal with stopwatches := readings } }
  | error f =>
    obtain ⟨logs, hreport⟩ := go_reportRow row f { job with
      journal := { job.journal with stopwatches := readings } }
    have hskipped : Booked out (rows ++ [row]) { job with
        task := { job.task with progress := job.task.progress.add 1 true } } :=
      Books.skipped h hresult
    refine hskipped.of_account ?_
    dsimp only
    rw [Act.go_bind, hreport]
    exact account_track true _

theorem Booked.step {job job' : Scan α} (h : Booked out rows job) {step : Step}
    (hgo : (step.act out).go job = (.ok (), job')) : Booked out (rows ++ step.row?.toList) job' := by
  have hkept : Keeps account (step.act out) → step.row? = none →
      Booked out (rows ++ step.row?.toList) job' := by
    intro hkeeps hnone
    rw [hnone, Option.toList_none, List.append_nil]
    exact h.of_account (hkeeps.of_go hgo)
  cases step with
  | ask offset limit => exact hkept (unwritten_account.keeps _) rfl
  | countPage page =>
    refine hkept ?_ rfl
    change Keeps account (Scan.countPage page)
    unfold Scan.countPage
    split
    · exact .pure _
    · exact fun _ => rfl
  | heed => exact hkept (.bind (Job.shouldStop_keeps (fun _ _ _ => rfl) out) fun _ => .pure _) rfl
  | scanRow row =>
    have hrow := h.scanRow row
    change (Scan.scanRow out row).go job = _ at hgo
    rwa [hgo] at hrow
  | flush => exact hkept (flush_keeps out unwritten_account) rfl

end ProxyCensus.Scan
