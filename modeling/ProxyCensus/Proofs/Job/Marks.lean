import ProxyCensus.Job.Resolve
import ProxyCensus.Job.Scan
import ProxyCensus.Proofs.Act

/-!
# The marks of a job

A job is never both interrupted and complete at its end, whatever happens in between: only the
question whether to stop sets the one mark, and only the end of the work sets the other. Main
statements: this for every job whose work does not touch the second mark and whose end touches
neither, and that a scan is such a job. What the rows, the pages and the end of a job keep is told from
what is done for each.
-/

namespace ProxyCensus

namespace Job

open Act (Keeps)

variable {τ α β γ : Type}

def marks (job : Job τ α) : Bool × Bool :=
  (job.interrupted, job.completed)

theorem keeps_adjust (f : τ → τ) : Keeps marks (adjust f : Act (Job τ α) Unit) :=
  fun _ => rfl

theorem keeps_completed {x : Act (Job τ α) β} (h : Keeps marks x) : Keeps Job.completed x :=
  fun job => congrArg Prod.snd (h job)

theorem keeps_shouldStop {part : Job τ α → γ} {out : Outside α}
    (hask : Keeps part (writing (Journal.askStop out)))
    (hmark : ∀ job, part { job with interrupted := true } = part job) : Keeps part (shouldStop out) := by
  refine .bind .state fun job => ?_
  split
  · exact .pure _
  · refine .bind hask fun stop => ?_
    split
    · exact .bind hmark fun _ => .pure _
    · exact .pure _

theorem shouldStop_keeps {part : Job τ α → γ}
    (hpart : ∀ job interrupted j, part { job with interrupted, journal := j } = part job)
    (out : Outside α) : Keeps part (shouldStop out) :=
  keeps_shouldStop (fun job => hpart job job.interrupted _) fun job => hpart job true job.journal

theorem go_shouldStop (out : Outside α) {job : Job τ α} (h : job.interrupted = false) :
    (shouldStop out).go job = (.ok (out.stop job.journal.stops || job.journal.stopped),
      { job with
        interrupted := out.stop job.journal.stops || job.journal.stopped
        journal := { job.journal with stops := job.journal.stops + 1 } }) := by
  obtain ⟨interrupted, completed, task, journal⟩ := job
  obtain rfl : interrupted = false := h
  unfold shouldStop
  rw [Act.go_bind, Act.go_state]
  dsimp only
  rw [if_neg Bool.false_ne_true, Act.go_bind]
  change Act.go (do
    if out.stop journal.stops || journal.stopped then Act.change ({ · with interrupted := true })
    return out.stop journal.stops || journal.stopped : Act (Job τ α) Bool)
    ⟨false, completed, task, { journal with stops := journal.stops + 1 }⟩ = _
  cases out.stop journal.stops || journal.stopped <;> rfl

theorem exists_shouldStop (out : Outside α) (job : Job τ α) :
    ∃ stop job', (shouldStop out).go job = (.ok stop, job') ∧
      (stop = true → job'.interrupted = true) := by
  cases hjob : job.interrupted with
  | false => exact ⟨_, _, go_shouldStop out hjob, id⟩
  | true =>
    refine ⟨true, job, ?_, fun _ => hjob⟩
    unfold shouldStop
    rw [Act.go_bind, Act.go_state]
    dsimp only
    rw [if_pos hjob]
    rfl

theorem interrupted_of_shouldStop {out : Outside α} {job job' : Job τ α}
    (h : (shouldStop out).go job = (.ok true, job')) : job'.interrupted = true := by
  obtain ⟨stop, job₁, hgo, hstop⟩ := exists_shouldStop out job
  obtain ⟨htrue, rfl⟩ := Prod.mk.inj (hgo.symm.trans h)
  exact hstop (Except.ok.inj htrue)

/-- A part of a job that its journal does not change. -/
def Unwritten (part : Job τ α → γ) : Prop :=
  ∀ job j, part { job with journal := j } = part job

theorem Unwritten.keeps {part : Job τ α → γ} (h : Unwritten part) (x : Act (Journal α) β) :
    Keeps part (writing x) :=
  fun job => h job _

theorem keeps_lastFlush {part : Job τ α → γ} {flush : Act (Job τ α) Unit} {logger : String}
    (hflush : Keeps part flush)
    (hlog : ∀ level message, Keeps part (writing (Journal.log level logger message))) (what : String) :
    Keeps part (lastFlush flush logger what) := by
  refine .bind hflush.outcome fun r => ?_
  cases r with
  | ok _ => exact .pure _
  | error f =>
    refine .bind .state fun job => ?_
    dsimp only
    split
    · exact .bind (.throw _) fun _ => .bind (hlog _ _) fun _ => .pure _
    · exact .bind (hlog _ _) fun _ => .pure _

/-- At the end of a job at most one mark is set. -/
theorem run_marks {start work finish : Act (Job τ α) Unit} (hstart : Keeps Job.completed start)
    (hwork : Keeps Job.completed work) (hfinish : Keeps marks finish) {job : Job τ α}
    (h : job.completed = false) :
    ¬(((run start work finish).go job).2.interrupted = true ∧
      ((run start work finish).go job).2.completed = true) := by
  have hbefore : Keeps Job.completed (do start; work : Act (Job τ α) Unit) :=
    hstart.bind fun _ => hwork
  have hsettled : ¬((Act.go (do start; work; settle) job).2.interrupted = true ∧
      (Act.go (do start; work; settle) job).2.completed = true) := by
    have hassoc : Act.go (do start; work; settle) job =
        Act.go ((do start; work : Act (Job τ α) Unit) >>= fun _ => settle) job := by
      rw [bind_assoc]
    have hkept := hbefore job
    rw [hassoc, Act.go_bind]
    generalize Act.go (do start; work : Act (Job τ α) Unit) job = result at hkept
    obtain ⟨r, job'⟩ := result
    cases r with
    | error e =>
      dsimp only at hkept ⊢
      simp [hkept, h]
    | ok a => simp [settle]
  have hmarks : marks ((run start work finish).go job).2 =
      marks (Act.go (do start; work; settle) job).2 := by
    have hlast := hfinish (Act.go (do start; work; settle) job).2
    rw [← hlast]
    unfold run Act.andFinally
    rw [Act.go_of]
    dsimp only
    rcases finish.go (Act.go (do start; work; settle) job).2 with ⟨r, job'⟩
    cases r <;> rfl
  intro hboth
  refine hsettled ⟨?_, ?_⟩
  · rw [← hboth.1]
    exact (congrArg Prod.fst hmarks).symm
  · rw [← hboth.2]
    exact (congrArg Prod.snd hmarks).symm

theorem go_run {start work finish : Act (Job τ α) Unit} {job noticed last : Job τ α}
    (hwork : Act.go (do start; work : Act (Job τ α) Unit) job = (.ok (), noticed))
    (hfinish : finish.go { noticed with completed := !noticed.interrupted } = (.ok (), last)) :
    (run start work finish).go job = (.ok (), last) := by
  have hsettled : Act.go (do start; work; settle) job =
      (.ok (), { noticed with completed := !noticed.interrupted }) := by
    have hok : (Act.go (do start; work : Act (Job τ α) Unit) job).1 = .ok () := by rw [hwork]
    rw [← bind_assoc, Act.go_bind_of_ok hok, hwork]
    rfl
  unfold run Act.andFinally
  rw [Act.go_of, hsettled]
  dsimp only
  rw [hfinish]

end Job

namespace Scan

open Act (Keeps)
open Job (marks Unwritten keeps_adjust keeps_completed)

variable {α β γ : Type} (out : Outside α) {part : Scan α → γ}

/-- A part of a scan that is neither what it has counted nor its journal. -/
def Aside (part : Scan α → γ) : Prop :=
  ∀ (job : Scan α) tally progress journal,
    part { job with task := { job.task with tally, progress }, journal } = part job

theorem Aside.unwritten (h : Aside part) : Unwritten part :=
  fun job j => h job job.task.tally job.task.progress j

theorem Aside.keeps_tracking (h : Aside part) (x : Act (Tracked α) β) : Keeps part (tracking x) :=
  fun job => h job job.task.tally _ _

theorem aside_marks : Aside (marks : Scan α → Bool × Bool) :=
  fun _ _ _ _ => rfl

theorem begin_keeps (h : Aside part) : Keeps part (begin out) :=
  .bind .state fun _ => .bind (h.unwritten.keeps _) fun _ => h.keeps_tracking _

theorem flush_keeps (h : Unwritten part) : Keeps part (flush out) :=
  .bind .state fun _ => .bind (.lift _) fun _ => h.keeps _

theorem classify_keeps (h : Unwritten part) (row : Row) : Keeps part (classify out row) :=
  .bind (.lift _) fun _ => .bind (h.keeps _) fun _ => .bind .state fun _ =>
    .bind (.lift _) fun _ => .bind (h.keeps _) fun _ => .bind (.lift _) fun _ => .pure _

theorem reportRow_keeps (h : Unwritten part) (row : Row) (f : Failure) :
    Keeps part (reportRow row f) := by
  unfold reportRow
  dsimp only
  split <;> exact h.keeps _

theorem scanRow_keeps (h : Aside part) (row : Row) : Keeps part (scanRow out row) := by
  refine .bind (classify_keeps out h.unwritten row).outcome fun r => ?_
  cases r with
  | ok _ => exact .bind (fun job => h job _ job.task.progress job.journal) fun _ => h.keeps_tracking _
  | error f => exact .bind (reportRow_keeps h.unwritten row f) fun _ => h.keeps_tracking _

theorem countPage_keeps (page : List Row) :
    Keeps marks (countPage page : Act (Scan α) Unit) := by
  unfold countPage
  split
  · exact .pure _
  · exact keeps_adjust _

/-- A part of a scan that its journal does not change and that everything keeps that is done for a page. -/
structure Upheld (part : Scan α → γ) : Prop where
  unwritten : Unwritten part
  shouldStop : Keeps part (Job.shouldStop out)
  countPage : ∀ page, Keeps part (countPage page)
  scanRow : ∀ row, Keeps part (scanRow out row)

theorem upheld_completed : Upheld out (Job.completed : Scan α → Bool) where
  unwritten _ _ := rfl
  shouldStop := Job.shouldStop_keeps (fun _ _ _ => rfl) out
  countPage page := keeps_completed (countPage_keeps page)
  scanRow row := keeps_completed (scanRow_keeps out aside_marks row)

variable {out}

theorem keeps_scanRows (hstop : Keeps part (Job.shouldStop out))
    (hrow : ∀ row, Keeps part (scanRow out row)) (page : List Row) : Keeps part (scanRows out page) := by
  induction page with
  | nil => exact .pure _
  | cons row rest ih =>
    refine .bind hstop fun stop => ?_
    split
    · exact .pure _
    · exact .bind (hrow row) fun _ => ih

theorem writing_fetchPage {β : Type} (offset limit : Nat) (f : List Row → Act (Scan α) β) :
    (Job.writing (Corpus.fetchPage out offset limit) >>= f) =
      Job.writing (Corpus.query out (.page offset limit)) >>= fun _ =>
        f (Corpus.page out.rows offset limit) := by
  funext job
  change Act.go _ job = Act.go _ job
  rw [Act.go_bind, Act.go_bind, Job.writing, Act.go_on, Job.writing, Act.go_on, Corpus.fetchPage,
    Act.go_bind]
  rcases (Corpus.query out (.page offset limit)).go job.journal with ⟨_ | _, _⟩ <;> rfl

theorem keeps_scanPages (hquery : ∀ q, Keeps part (Job.writing (Corpus.query out q)))
    (hcount : ∀ page, Keeps part (countPage page)) (hrows : ∀ page, Keeps part (scanRows out page))
    (hflush : Keeps part (flush out)) (batch : Nat) (hbatch : 0 < batch) (offset : Nat) :
    Keeps part (scanPages out batch hbatch offset) := by
  induction offset using scanPages.induct out batch hbatch with
  | case1 offset ih =>
    rw [scanPages, writing_fetchPage]
    refine .bind (hquery _) fun _ => .bind (hcount _) fun _ => .bind (hrows _) fun stop => ?_
    split
    · exact .pure _
    · refine .bind hflush fun _ => ?_
      split
      · exact .pure _
      · exact ih ‹_›

theorem Upheld.scanRows (h : Upheld out part) (page : List Row) : Keeps part (scanRows out page) :=
  keeps_scanRows h.shouldStop h.scanRow page

theorem Upheld.scanPages (h : Upheld out part) (batch : Nat) (hbatch : 0 < batch) (offset : Nat) :
    Keeps part (scanPages out batch hbatch offset) :=
  keeps_scanPages (fun _ => h.unwritten.keeps _) h.countPage h.scanRows (flush_keeps out h.unwritten)
    batch hbatch offset

theorem Upheld.work (h : Upheld out part) : Keeps part (work out) :=
  .bind .state fun _ => h.scanPages _ _ _

variable (out)

theorem keeps_ending (hlog : ∀ level message, Keeps part (log level message)) : Keeps part (do
    summarize
    let job ← Act.state
    if job.interrupted then
      log .warning s!"Corpus scan interrupted after {job.task.tally.analyzed} contracts") := by
  refine .bind (.bind .state fun _ => .bind (.lift _) fun _ => .bind (hlog _ _) fun _ =>
    .bind (hlog _ _) fun _ => .bind (hlog _ _) fun _ => .bind (hlog _ _) fun _ => hlog _ _) fun _ =>
      .bind .state fun job => ?_
  split
  · exact hlog _ _
  · exact .pure _

theorem keeps_finish (hcount : Keeps part (tracking (Tracked.finish out)))
    (hflush : Keeps part (flush out)) (hlog : ∀ level message, Keeps part (log level message)) :
    Keeps part (finish out) := by
  refine .bind hcount fun _ => .bind (Job.keeps_lastFlush hflush hlog _) fun flushed => ?_
  split
  · exact keeps_ending hlog
  · exact .pure _

theorem finish_keeps_of (h : Unwritten part) (hcount : Keeps part (tracking (Tracked.finish out))) :
    Keeps part (finish out) :=
  keeps_finish out hcount (flush_keeps out h) fun _ _ => h.keeps _

theorem finish_keeps (h : Aside part) : Keeps part (finish out) :=
  finish_keeps_of out h.unwritten (h.keeps_tracking _)

/-- A scan is never both interrupted and complete, whatever comes in its way. -/
theorem run_marks {job : Scan α} (h : job.completed = false) :
    ¬(((run out).go job).2.interrupted = true ∧ ((run out).go job).2.completed = true) :=
  Job.run_marks (keeps_completed (begin_keeps out aside_marks)) (upheld_completed out).work
    (finish_keeps out aside_marks) h

end Scan

namespace Resolve

open Act (Keeps)

variable {α γ : Type} {part : Resolve α → γ}

theorem keeps_ending (hlog : ∀ level message, Keeps part (log level message)) : Keeps part (do
    summarize
    let job ← Act.state
    if job.interrupted then
      log .warning s!"Candidate resolution interrupted after {job.task.tally.processed} contracts") := by
  refine .bind (.bind .state fun _ => .bind (hlog _ _) fun _ => .bind (hlog _ _) fun _ =>
    .bind (hlog _ _) fun _ => .bind (hlog _ _) fun _ => hlog _ _) fun _ => .bind .state fun job => ?_
  split
  · exact hlog _ _
  · exact .pure _

/-- The end of a resolution keeps what the end of its count keeps, its flush and its messages. -/
theorem keeps_finish {out : Outside α} (hcount : Keeps part (tracking (Tracked.finish out)))
    (hflush : Keeps part (flush out)) (hlog : ∀ level message, Keeps part (log level message)) :
    Keeps part (finish out) := by
  refine .bind hcount fun _ => .bind (Job.keeps_lastFlush hflush hlog _) fun flushed => ?_
  split
  · exact keeps_ending hlog
  · exact .pure _

end Resolve

end ProxyCensus
