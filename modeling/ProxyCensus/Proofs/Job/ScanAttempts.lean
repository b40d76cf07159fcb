import ProxyCensus.Proofs.Job.ScanInterruption
import ProxyCensus.Proofs.Job.Surfaced

/-!
# The attempts of a scan

What a scan does that may fail, whatever comes in its way: it asks for pages and writes its files after
each. Main statement: it surfaces the first failure of these, and whatever it writes is what was counted
in a whole number of rows.
-/

namespace ProxyCensus.Scan

open Job (Alike Closes Flushes Surfaces flushing)
open Snapshot (PlainFamily)

variable {α : Type} {out : Outside α} {start job : Scan α} {rows : Nat}

def artifacts (task : ScanTask) : Except Failure (List (String × Document)) :=
  task.tally.artifacts

def WholeRows (out : Outside α) (start : Scan α) (docs : Except Failure (List (String × Document))) :
    Prop :=
  ∃ rows ≤ out.rows.length, docs = (countedAt out start rows).tally.artifacts

/-- Since `start` a scan has counted the first rows of the corpus, whatever came in its way. -/
structure Counting (out : Outside α) (start : Scan α) (rows : Nat) (job : Scan α) : Prop where
  catalog : job.task.catalog = start.task.catalog
  folder : job.task.folder = start.task.folder
  counted : counted job = countedAt out start rows
  endless : job.task.progress.Endless
  processed : job.task.progress.processed = rows
  within : rows ≤ out.rows.length
  completed : job.completed = false

/-- Some rows were counted, and the scan was not told to stop. -/
def Failed (out : Outside α) (start : Scan α) (job : Scan α) : Prop :=
  (∃ rows, Counting out start rows job) ∧ job.interrupted = false

/-- A computation of a scan makes attempts until one of them fails, and counts a whole number of rows. -/
abbrev Works {β : Type} (out : Outside α) (start : Scan α) (x : Act (Scan α) β) (job : Scan α)
    (Done : β → Scan α → Prop) : Prop :=
  Tries out start.task.folder (WholeRows out start) Job.journal (Failed out start) x job Done

theorem Counting.journal (h : Counting out start rows job) {j : Journal α}
    (hreadings : j.stopwatches = job.journal.stopwatches) :
    Counting out start rows { job with journal := j } := by
  refine { h with counted := ?_ }
  rw [← h.counted]
  unfold Scan.counted
  rw [hreadings]

theorem Counting.whole (h : Counting out start rows job) : WholeRows out start (artifacts job.task) := by
  refine ⟨rows, h.within, ?_⟩
  rw [← h.counted]
  rfl

theorem go_flush (job : Scan α) : Flushes out job.task.folder artifacts (flush out) job := by
  unfold Flushes Job.flushing artifacts Attempt.act Scan.flush
  rw [Act.go_bind, Act.go_state]
  dsimp only
  cases job.task.tally.artifacts <;> rfl

theorem Counting.attempt (h : Counting out start rows job) (hgoing : job.interrupted = false)
    {x : Act (Scan α) Unit} {a : Attempt}
    (hgo : x.go job = (((a.act out start.task.folder).go job.journal).1,
      { job with journal := ((a.act out start.task.folder).go job.journal).2 }))
    (ha : ∀ docs, a = .flush docs → WholeRows out start docs) :
    Works out start x job
      fun _ job' => Counting out start rows job' ∧ job'.interrupted = false := by
  have hafter : Counting out start rows (x.go job).2 ∧ (x.go job).2.interrupted = false := by
    rw [hgo]
    exact ⟨h.journal (Attempt.stopwatches_act ..), hgoing⟩
  refine .attempt ?_ ?_ ha (fun _ _ => hafter) ⟨⟨rows, hafter.1⟩, hafter.2⟩
  · rw [hgo, map_unit]
  · rw [hgo]

theorem Counting.query (h : Counting out start rows job) (hgoing : job.interrupted = false) (q : Query) :
    Works out start (Job.writing (Corpus.query out q)) job
      fun _ job' => Counting out start rows job' ∧ job'.interrupted = false :=
  h.attempt hgoing (a := .query q) rfl fun docs hdocs => by cases hdocs

theorem Counting.flush (h : Counting out start rows job) (hgoing : job.interrupted = false) :
    Works out start (Scan.flush out) job
      fun _ job' => Counting out start rows job' ∧ job'.interrupted = false := by
  have hgo : Flushes out job.task.folder artifacts (Scan.flush out) job := go_flush job
  rw [h.folder] at hgo
  exact h.attempt hgoing hgo fun docs hdocs => Attempt.flush.inj hdocs ▸ h.whole

theorem Counting.scanRow (h : Counting out start rows job) {row : Row}
    (hrow : out.rows[rows]? = some row) :
    ∃ job', (Scan.scanRow out row).go job = (.ok (), job') ∧ Counting out start (rows + 1) job' ∧
      job'.journal.outward = job.journal.outward ∧ job'.interrupted = job.interrupted := by
  obtain ⟨skipped, logs, hgo⟩ := go_scanRow out row h.endless
  refine ⟨_, hgo, { h with counted := ?_, endless := ?_, processed := ?_, within := ?_ }, rfl, rfl⟩
  · rw [countedAt_succ hrow, ← h.counted, ← h.catalog]
    rfl
  · exact h.endless.add 1 skipped
  · exact congrArg (· + 1) h.processed
  · exact (List.getElem?_eq_some_iff.1 hrow).1

/-- The rows of a page are counted, all of them unless the scan is told to stop. -/
theorem Counting.scanRows (page : List Row) :
    ∀ {rows : Nat} {job : Scan α}, Counting out start rows job → job.interrupted = false →
      page <+: out.rows.drop rows →
      Works out start (Scan.scanRows out page) job fun stop job' =>
        if stop then ∃ n, Counting out start n job'
        else Counting out start (rows + page.length) job' ∧ job'.interrupted = false := by
  induction page with
  | nil => exact fun h hgoing _ => .pure ⟨h, hgoing⟩
  | cons row rest ih =>
    intro rows job h hgoing hpage
    obtain ⟨hrow, hrest⟩ := drop_of_cons_prefix hpage
    unfold Scan.scanRows
    refine .after_go (Job.go_shouldStop out hgoing) rfl ?_
    cases out.stop job.journal.stops || job.journal.stopped with
    | true => exact .pure ⟨rows, { h with counted := h.counted }⟩
    | false =>
      have hnext : Counting out start rows { job with
          interrupted := false, journal := { job.journal with stops := job.journal.stops + 1 } } :=
        { h with counted := h.counted }
      obtain ⟨job₁, hgo₁, h₁, houtward₁, hgoing₁⟩ := hnext.scanRow hrow
      refine .after_go hgo₁ houtward₁ ((ih h₁ hgoing₁ hrest).mono fun stop job₂ h₂ => ?_)
      rwa [List.length_cons, Nat.add_comm rest.length, ← Nat.add_assoc]

theorem Counting.countPage (h : Counting out start rows job) (page : List Row) :
    ∃ job', (Scan.countPage page).go job = (.ok (), job') ∧ Counting out start rows job' ∧
      job'.journal = job.journal ∧ job'.interrupted = job.interrupted := by
  unfold Scan.countPage
  split
  · exact ⟨job, rfl, h, rfl, rfl⟩
  · exact ⟨_, rfl, { h with counted := h.counted }, rfl, rfl⟩

/-- From the first row of a page on, a scan asks for pages and writes its files after each. -/
theorem Counting.scanPages {batch : Nat} (hbatch : 0 < batch) (offset : Nat) :
    ∀ {job : Scan α}, Counting out start offset job → job.interrupted = false →
      Works out start (Scan.scanPages out batch hbatch offset) job
        fun _ job' => ∃ n, Counting out start n job' := by
  -- Along the pages: where a page begins, as many rows were counted as stand before it.
  induction offset using scanPages.induct out batch hbatch with
  | case1 offset ih =>
    intro job h hgoing
    rw [Scan.scanPages, writing_fetchPage]
    refine (h.query hgoing _).bind fun _ job₁ hasked => ?_
    obtain ⟨h₁, hgoing₁⟩ := hasked
    obtain ⟨job₂, hcount, h₂, hjournal, hgoing₂⟩ := h₁.countPage
      (Corpus.page out.rows offset batch)
    refine .after_go hcount (congrArg Journal.outward hjournal) ?_
    refine (h₂.scanRows _ (hgoing₂.trans hgoing₁)
      (page_prefix_drop out.rows offset batch)).bind fun stop job₃ h₃ => ?_
    cases stop with
    | true => exact .pure h₃
    | false =>
      refine (h₃.1.flush h₃.2).bind fun _ job₄ hflushed => ?_
      obtain ⟨h₄, hgoing₄⟩ := hflushed
      by_cases hlast : (Corpus.page out.rows offset batch).length < batch
      · rw [dif_pos hlast]
        exact .pure ⟨_, h₄⟩
      · rw [dif_neg hlast]
        refine ih hlast ?_ hgoing₄
        have hfull : (Corpus.page out.rows offset batch).length = batch := by
          rw [length_page] at hlast ⊢
          omega
        rwa [hfull] at h₄

theorem start?_eq_ok {catalog : List Definition} {folder : Folder} {batch step : Int} {task : ScanTask}
    (h : start? catalog folder batch (.whole step) = .ok task) :
    task.folder = folder ∧ task.progress.itemStep = .whole step ∧ task.progress.processed = 0 ∧
      task.tally = {} := by
  unfold start? at h
  split at h
  · cases h
    exact ⟨rfl, rfl, rfl, rfl⟩
  · cases h

/-- The work of a scan makes attempts until one of them fails. -/
theorem tries_work {task : ScanTask} {step : Int} (hstep : task.progress.itemStep = .whole step)
    (hne : step ≠ 0) (hprocessed : task.progress.processed = 0) (journal : Journal α) :
    Works out ⟨false, false, task, journal⟩ (do Scan.begin out; work out)
      ⟨false, false, task, journal⟩ fun _ job' =>
        ∃ rows, Counting out ⟨false, false, task, journal⟩ rows job' := by
  obtain ⟨job, hbegin, hjob, houtward, hgoing⟩ : ∃ job,
      (Scan.begin out).go ⟨false, false, task, journal⟩ = (.ok (), job) ∧
      Counting out ⟨false, false, task, journal⟩ 0 job ∧ job.journal.outward = journal.outward ∧
      job.interrupted = false :=
    ⟨_, rfl, ⟨rfl, rfl, rfl, ⟨rfl, step, hstep, hne⟩, hprocessed, Nat.zero_le _, rfl⟩, rfl, rfl⟩
  exact .after_go hbegin houtward (.after_go rfl rfl (hjob.scanPages _ 0 hgoing))

theorem closes {job : Scan α} (hprocessed : job.task.progress.processed.natAbs < 2 ^ 255) :
    Closes out job.task.folder artifacts (Scan.finish out) job := by
  obtain ⟨job₁, htrack, halike, hfolder⟩ : ∃ job₁ : Scan α,
      (tracking (Tracked.finish out)).go job = (.ok (), job₁) ∧ Alike artifacts job job₁ ∧
        job₁.task.folder = job.task.folder := by
    obtain ⟨dates, logs, hend⟩ := go_tracking_finish out hprocessed
    exact ⟨_, hend, ⟨rfl, rfl, rfl⟩, rfl⟩
  have hflush : Flushes out job₁.task.folder artifacts (Scan.flush out) job₁ := go_flush job₁
  rw [hfolder] at hflush
  refine Closes.of_flushes logger "corpus scan" htrack halike hflush fun docs job₂ hdocs => ?_
  obtain ⟨stats, hstats⟩ : ∃ stats, job₂.task.tally.stats = .ok stats := by
    unfold artifacts ScanTally.artifacts at hdocs
    cases hstats : job₂.task.tally.stats with
    | ok stats => exact ⟨stats, rfl⟩
    | error f =>
      rw [hstats] at hdocs
      cases hdocs
  obtain ⟨logs, hsummary⟩ := go_summarize hstats
  rw [Act.go_bind, hsummary]
  dsimp only
  rw [Act.go_bind, Act.go_state]
  dsimp only
  split
  · exact ⟨_, rfl, rfl, rfl, rfl⟩
  · exact ⟨_, rfl, rfl, rfl, rfl⟩

theorem Counting.closes (h : Counting out start rows job) (hfew : out.rows.length < 2 ^ 64)
    (completed : Bool) :
    Closes out start.task.folder artifacts (Scan.finish out) { job with completed := completed } := by
  have hprocessed : job.task.progress.processed.natAbs < 2 ^ 255 := by
    have hwithin := h.within
    rw [h.processed]
    omega
  have hcloses := @Scan.closes α out { job with completed := completed } hprocessed
  rwa [← h.folder]

theorem plainFamily_fileNames : PlainFamily ScanTally.fileNames := by decide

theorem WholeRows.names {docs : List (String × Document)} (h : WholeRows out start (.ok docs)) :
    docs.map (·.1) = ScanTally.fileNames := by
  obtain ⟨rows, -, hdocs⟩ := h
  unfold ScanTally.artifacts at hdocs
  cases hstats : (countedAt out start rows).tally.stats with
  | ok stats =>
    rw [hstats] at hdocs
    obtain rfl := Except.ok.inj hdocs
    exact ScanTally.names_documents _ stats
  | error f =>
    rw [hstats] at hdocs
    cases hdocs

/-- Every scan surfaces the first failure of its attempts, whatever comes in its way. -/
theorem surfaces {catalog : List Definition} {folder : Folder} {batch step : Int} {task : ScanTask}
    (htask : start? catalog folder batch (.whole step) = .ok task) (hne : step ≠ 0) (out : Outside α)
    (hfew : out.rows.length < 2 ^ 64) (journal : Journal α) :
    Surfaces out folder ScanTally.fileNames artifacts (WholeRows out ⟨false, false, task, journal⟩)
      (Scan.begin out) (work out) (Scan.finish out) ⟨false, false, task, journal⟩ := by
  obtain ⟨rfl, hstep, hprocessed, -⟩ := start?_eq_ok htask
  refine Job.surfaces_of_tries (tries_work hstep hne hprocessed journal) ?_ ?_ ?_ plainFamily_fileNames
    fun docs => WholeRows.names
  · exact fun job ⟨_, h⟩ => h.completed
  · exact fun job ⟨_, h⟩ => h.whole
  · exact fun job completed ⟨_, h⟩ => h.closes hfew completed

end ProxyCensus.Scan
