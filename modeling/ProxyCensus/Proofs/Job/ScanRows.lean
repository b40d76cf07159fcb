import ProxyCensus.Job.Scan
import ProxyCensus.Proofs.Progress
import ProxyCensus.Proofs.Tally.Scan

/-!
# The rows of a scan

What a scan does with one row, and what it has counted after some rows: a function of the rows, of
the catalog and of the readings of the stopwatch alone. Main statements: a row changes the tally, the
progress, the stopwatch and the messages and nothing else, and after rows that were timed in doubles
the tally is one whose files can be written.
-/

namespace ProxyCensus.Scan

open Decimal (Number)
open Decimal.Number (Tame)

variable {α : Type}

structure Count where
  tally : ScanTally := {}
  readings : Nat := 0

def classified (catalog : List Definition) (stopwatch : Nat → Number) (readings : Nat) (row : Row) :
    Except Failure (Classification × Number) × Nat :=
  match ContractRecord.ofRow row with
  | .error e => (.error e, readings)
  | .ok record =>
    match Classification.ofRecord catalog record with
    | .error e => (.error e, readings + 1)
    | .ok c =>
      ((milliseconds (stopwatch readings) (stopwatch (readings + 1))).map (c, ·), readings + 2)

def Count.add (catalog : List Definition) (stopwatch : Nat → Number) (count : Count) (row : Row) :
    Count :=
  let (r, readings) := classified catalog stopwatch count.readings row
  match r with
  | .ok (c, duration) => ⟨count.tally.record c duration, readings⟩
  | .error _ => ⟨count.tally, readings⟩

def Count.ofRows (catalog : List Definition) (stopwatch : Nat → Number) (count : Count)
    (rows : List Row) : Count :=
  rows.foldl (Count.add catalog stopwatch) count

def counted (job : Scan α) : Count :=
  ⟨job.task.tally, job.journal.stopwatches⟩

theorem go_stopwatch (out : Outside α) (job : Scan α) :
    (Job.writing (Journal.stopwatch out)).go job = (.ok (out.stopwatch job.journal.stopwatches),
      { job with journal := { job.journal with stopwatches := job.journal.stopwatches + 1 } }) :=
  rfl

theorem go_classify (out : Outside α) (row : Row) (job : Scan α) :
    (classify out row).go job =
      ((classified job.task.catalog out.stopwatch job.journal.stopwatches row).1,
        { job with journal := { job.journal with
          stopwatches :=
            (classified job.task.catalog out.stopwatch job.journal.stopwatches row).2 } }) := by
  unfold classify classified
  rw [Act.go_bind, Act.go_lift]
  cases ContractRecord.ofRow row with
  | error e => rfl
  | ok record =>
    dsimp only
    rw [Act.go_bind, go_stopwatch]
    dsimp only
    rw [Act.go_bind, Act.go_state]
    dsimp only
    rw [Act.go_bind, Act.go_lift]
    cases Classification.ofRecord job.task.catalog record with
    | error e => rfl
    | ok c =>
      dsimp only
      rw [Act.go_bind, go_stopwatch]
      dsimp only
      rw [Act.go_bind, Act.go_lift]
      cases milliseconds (out.stopwatch job.journal.stopwatches)
        (out.stopwatch (job.journal.stopwatches + 1)) <;> rfl

def afterRow (out : Outside α) (row : Row) (skipped : Bool) (logs : Array LogRecord)
    (job : Scan α) : Scan α :=
  let count := (counted job).add job.task.catalog out.stopwatch row
  { job with
    task := { job.task with
      tally := count.tally, progress := job.task.progress.add 1 skipped }
    journal := { job.journal with stopwatches := count.readings, logs := logs } }

theorem go_tracking {job : Scan α} (h : job.task.progress.Endless) (skipped : Bool) :
    ∃ logs, (tracking (Tracked.track 1 skipped)).go job = (.ok (), { job with
      task := { job.task with progress := job.task.progress.add 1 skipped }
      journal := { job.journal with logs := logs } }) := by
  obtain ⟨logs, hlogs⟩ := Tracked.go_track (t := ⟨job.task.progress, job.journal⟩) h 1 skipped
  refine ⟨logs, ?_⟩
  unfold tracking
  rw [Act.go_on, hlogs]

theorem go_tracking_finish (out : Outside α) {job : Scan α}
    (h : job.task.progress.processed.natAbs < 2 ^ 255) :
    ∃ dates logs, (tracking (Tracked.finish out)).go job = (.ok (), { job with
      task := { job.task with progress := { job.task.progress with started := none } }
      journal := { job.journal with dates := dates, logs := logs } }) := by
  obtain ⟨dates, logs, hgo⟩ := @Tracked.go_finish α out ⟨job.task.progress, job.journal⟩ h
  refine ⟨dates, logs, ?_⟩
  unfold tracking
  rw [Act.go_on, hgo]

theorem go_reportRow (row : Row) (f : Failure) (job : Scan α) : ∃ logs,
    (reportRow row f).go job = (.ok (), { job with journal := { job.journal with logs := logs } }) := by
  unfold reportRow
  dsimp only
  split <;> exact ⟨_, rfl⟩

/-- A row is counted or skipped, and nothing else happens but messages, unless the progress fails to
count it. -/
theorem go_scanRow_of_tracking (out : Outside α) (row : Row) {job : Scan α} {r : Except Failure Unit}
    (h : ∀ (job' : Scan α) (skipped : Bool), job'.task.progress = job.task.progress →
      ∃ logs, (tracking (Tracked.track 1 skipped)).go job' = (r, { job' with
        task := { job'.task with progress := job.task.progress.add 1 skipped }
        journal := { job'.journal with logs := logs } })) :
    ∃ skipped logs, (scanRow out row).go job = (r, afterRow out row skipped logs job) := by
  unfold scanRow
  rw [Act.go_bind, Act.go_outcome, go_classify]
  dsimp only
  unfold afterRow counted Count.add
  dsimp only
  cases classified job.task.catalog out.stopwatch job.journal.stopwatches row with
  | mk r readings =>
    cases r with
    | ok found =>
      obtain ⟨logs, hlogs⟩ := h { job with
        task := { job.task with tally := job.task.tally.record found.1 found.2 }
        journal := { job.journal with stopwatches := readings } } false rfl
      exact ⟨false, logs, hlogs⟩
    | error e =>
      obtain ⟨logs, hlogs⟩ := go_reportRow row e { job with
        journal := { job.journal with stopwatches := readings } }
      obtain ⟨logs', hlogs'⟩ := h { job with
        journal := { job.journal with stopwatches := readings, logs := logs } } true rfl
      refine ⟨true, logs', ?_⟩
      dsimp only
      rw [Act.go_bind, hlogs]
      exact hlogs'

theorem go_scanRow (out : Outside α) (row : Row) {job : Scan α}
    (h : job.task.progress.Endless) :
    ∃ skipped logs, (scanRow out row).go job = (.ok (), afterRow out row skipped logs job) := by
  refine go_scanRow_of_tracking out row fun job' skipped hsame => ?_
  rw [← hsame] at h ⊢
  exact go_tracking h skipped

/-- A row is counted or skipped, but not by a progress whose messages come every zero contracts. -/
theorem go_scanRow_of_zero (out : Outside α) (row : Row) {job : Scan α}
    (htotal : job.task.progress.total = none) (hstep : job.task.progress.itemStep = .whole 0) :
    ∃ skipped logs, (scanRow out row).go job =
      (.error .divisionByZero, afterRow out row skipped logs job) := by
  refine go_scanRow_of_tracking out row fun job' skipped hsame => ⟨job'.journal.logs, ?_⟩
  rw [← hsame] at htotal hstep ⊢
  unfold tracking
  rw [Act.go_on, Tracked.go_track_of_zero htotal hstep]

theorem milliseconds_tame {a b : Number} (ha : ∃ x, a = .real x) (hb : ∃ x, b = .real x) :
    ∃ x, milliseconds a b = .ok (.real x) := by
  obtain ⟨x, rfl⟩ := ha
  obtain ⟨y, rfl⟩ := hb
  obtain ⟨z, hz⟩ := @Decimal.ofInt?_isSome 1000 (by decide)
  refine ⟨(y - x) * z, ?_⟩
  change Failure.orElse _ ((Number.real (y - x)).mul? (.whole 1000)) = _
  unfold Number.mul? Number.combine? Number.toFloat?
  dsimp only
  rw [hz]
  rfl

variable {catalog : List Definition} {stopwatch : Nat → Number}

/-- What detection says of the contract in a row; nothing when it cannot be searched. -/
def detected? (catalog : List Definition) (row : Row) : Option Classification :=
  match ContractRecord.ofRow row with
  | .ok record => (Classification.ofRecord catalog record).toOption
  | .error _ => none

theorem detected?_eq_some_iff {row : Row} {c : Classification} :
    detected? catalog row = some c ↔ ∃ record, ContractRecord.ofRow row = .ok record ∧
      Classification.ofRecord catalog record = .ok c := by
  unfold detected?
  cases ContractRecord.ofRow row with
  | error e => simp
  | ok record =>
    simp only [Except.ok.injEq, exists_eq_left']
    cases Classification.ofRecord catalog record <;> simp [Except.toOption]

theorem Count.tally_add (htimed : ∀ n, ∃ x, stopwatch n = .real x) (count : Count) (row : Row) :
    detected? catalog row = none ∧ (count.add catalog stopwatch row).tally = count.tally ∨
      ∃ c x, detected? catalog row = some c ∧
        (count.add catalog stopwatch row).tally = count.tally.record c (.real x) := by
  unfold add classified detected?
  cases ContractRecord.ofRow row with
  | error e => exact .inl ⟨rfl, rfl⟩
  | ok record =>
    dsimp only
    cases Classification.ofRecord catalog record with
    | error e => exact .inl ⟨rfl, rfl⟩
    | ok c =>
      obtain ⟨x, hx⟩ := milliseconds_tame (htimed count.readings) (htimed (count.readings + 1))
      dsimp only
      rw [hx]
      exact .inr ⟨c, x, rfl, rfl⟩

theorem Count.within_add (htimed : ∀ n, ∃ x, stopwatch n = .real x) {count : Count} {n : Nat}
    (h : count.tally.Within n) (row : Row) :
    (count.add catalog stopwatch row).tally.Within (n + 1) := by
  rcases @tally_add catalog stopwatch htimed count row with ⟨-, htally⟩ | ⟨c, x, hrow, htally⟩
  · exact htally ▸ h.mono (Nat.le_succ n)
  · obtain ⟨record, hrecord, hc⟩ := detected?_eq_some_iff.1 hrow
    exact htally ▸ h.record (Classification.detected_of_row hrecord hc) x

theorem Count.within_ofRows (htimed : ∀ n, ∃ x, stopwatch n = .real x) (rows : List Row) :
    ∀ (count : Count) (n : Nat), count.tally.Within n →
      (count.ofRows catalog stopwatch rows).tally.Within (n + rows.length) := by
  induction rows with
  | nil => exact fun _ _ h => h
  | cons row rest ih =>
    intro count n h
    have hrest := ih (count.add catalog stopwatch row) (n + 1)
      (@within_add catalog stopwatch htimed count n h row)
    rw [List.length_cons, Nat.add_comm rest.length, ← Nat.add_assoc]
    exact hrest

end ProxyCensus.Scan
