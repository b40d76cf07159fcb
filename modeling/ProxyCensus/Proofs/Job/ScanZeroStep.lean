import ProxyCensus.Proofs.Job.ScanAttempts

/-!
# Scans that cannot count

A scan whose messages come every zero contracts. Main statement: it fails at its first row, when nothing
comes in its way, and its files are written all the same.
-/

namespace ProxyCensus.Scan

variable {α : Type} {out : Outside α}

/-- By a progress whose messages come every zero contracts not one row of a page is counted. -/
theorem go_scanRows_of_zero (huntold : ∀ n, out.stop n = false) {job : Scan α}
    (htotal : job.task.progress.total = none) (hstep : job.task.progress.itemStep = .whole 0)
    (hstopped : job.journal.stopped = false) (hgoing : job.interrupted = false) (row : Row)
    (rest : List Row) :
    ∃ skipped logs, (scanRows out (row :: rest)).go job = (.error .divisionByZero,
      afterRow out row skipped logs { job with
        journal := { job.journal with stops := job.journal.stops + 1 } }) := by
  have hasked := Job.go_shouldStop out hgoing
  rw [huntold, hstopped, Bool.or_false] at hasked
  obtain ⟨skipped, logs, hrow⟩ := @go_scanRow_of_zero α out row { job with
    journal := { job.journal with stops := job.journal.stops + 1 } } htotal hstep
  refine ⟨skipped, logs, ?_⟩
  unfold scanRows
  rw [Act.go_bind, hasked]
  dsimp only
  rw [← hgoing, if_neg (by rw [hgoing]; decide), Act.go_bind, hrow]

/-- The work of a scan whose messages come every zero contracts ends at its first row. -/
theorem go_work_of_zero (hcalm : Calm out) (huntold : ∀ n, out.stop n = false) {row : Row}
    {rest : List Row} (hrows : out.rows = row :: rest) {job : Scan α}
    (htotal : job.task.progress.total = none) (hstep : job.task.progress.itemStep = .whole 0)
    (hstopped : job.journal.stopped = false) (hgoing : job.interrupted = false) :
    ∃ skipped logs, (work out).go job = (.error .divisionByZero,
      afterRow out row skipped logs { job with
        task := { job.task with pages := job.task.pages + 1 }
        journal := { job.journal with
          queries := job.journal.queries.push (.page 0 job.task.batch)
          stops := job.journal.stops + 1 } }) := by
  have hpage : Corpus.page out.rows 0 job.task.batch = row :: rest.take (job.task.batch - 1) := by
    obtain ⟨n, hn⟩ : ∃ n, job.task.batch = n + 1 :=
      ⟨job.task.batch - 1, by have := job.task.batch_pos; omega⟩
    rw [hrows, hn]
    rfl
  let asked : Scan α := { job with
    journal := { job.journal with queries := job.journal.queries.push (.page 0 job.task.batch) } }
  let noted : Scan α := { asked with task := { job.task with pages := job.task.pages + 1 } }
  have hquery : (Job.writing (Corpus.query out (.page (0 : Nat) job.task.batch))).go job =
      (.ok (), asked) := by
    unfold Job.writing
    rw [Act.go_on, Corpus.go_query hcalm.undisturbed]
    rfl
  have hcount : (countPage (Corpus.page out.rows 0 job.task.batch)).go asked = (.ok (), noted) := by
    rw [hpage]
    rfl
  obtain ⟨skipped, logs, hscan⟩ := @go_scanRows_of_zero α out huntold noted htotal hstep hstopped hgoing
    row (rest.take (job.task.batch - 1))
  rw [← hpage] at hscan
  refine ⟨skipped, logs, ?_⟩
  unfold work
  rw [Act.go_bind, Act.go_state]
  dsimp only
  rw [scanPages, writing_fetchPage, Act.go_bind, hquery]
  dsimp only
  rw [Act.go_bind, hcount]
  dsimp only
  rw [Act.go_bind, hscan]

/-- Since `start` a scan has asked for one page and counted one row, and it has not written anything. -/
structure CountedFirst (start job : Scan α) : Prop where
  folder : job.task.folder = start.task.folder
  within : job.task.tally.Within 1
  processed : job.task.progress.processed = 1
  marks : job.marks = (false, false)
  disk : job.journal.disk = start.journal.disk
  queries : job.journal.queries.size = start.journal.queries.size + 1
  flushCalls : job.journal.flushCalls = start.journal.flushCalls
  flushed : job.journal.flushed = start.journal.flushed

/-- A scan whose messages come every zero contracts counts its first row, and only then its progress
fails. -/
theorem counts_first_of_zero (hcalm : Calm out) (huntold : ∀ n, out.stop n = false) {row : Row}
    {rest : List Row} (hrows : out.rows = row :: rest) {task : ScanTask}
    (hstep : task.progress.itemStep = .whole 0) (hprocessed : task.progress.processed = 0)
    (htally : task.tally = {}) {journal : Journal α} (hstopped : journal.stopped = false) :
    ∃ worked, Act.go (do Scan.begin out; work out) ⟨false, false, task, journal⟩ =
      (.error .divisionByZero, worked) ∧ CountedFirst ⟨false, false, task, journal⟩ worked := by
  obtain ⟨begun, hbegin, htotal₁, hstep₁, hstopped₁, hmarks, htask₁, houtward⟩ :
    ∃ job : Scan α,
      (Scan.begin out).go ⟨false, false, task, journal⟩ = (.ok (), job) ∧
      job.task.progress.total = none ∧ job.task.progress.itemStep = .whole 0 ∧
      job.journal.stopped = false ∧ job.marks = (false, false) ∧
      (job.task.folder, job.task.tally, job.task.progress.processed) =
        (task.folder, task.tally, task.progress.processed) ∧
      job.journal.outward = journal.outward :=
    ⟨_, rfl, rfl, hstep, hstopped, rfl, rfl, rfl⟩
  simp only [Prod.mk.injEq, Journal.outward, htally, hprocessed] at htask₁ houtward
  obtain ⟨hfolder, htally₁, hprocessed₁⟩ := htask₁
  obtain ⟨hqueries, hdisk, -, hflushed, hcalls⟩ := houtward
  obtain ⟨skipped, logs, hwork⟩ :=
    go_work_of_zero hcalm huntold hrows htotal₁ hstep₁ hstopped₁ (congrArg Prod.fst hmarks)
  have hfailed : Act.go (do Scan.begin out; work out) ⟨false, false, task, journal⟩ =
      (.error .divisionByZero, afterRow out row skipped logs { begun with
        task := { begun.task with pages := begun.task.pages + 1 }
        journal := { begun.journal with
          queries := begun.journal.queries.push (.page 0 begun.task.batch)
          stops := begun.journal.stops + 1 } }) := by
    rw [Act.go_bind, hbegin]
    exact hwork
  refine ⟨_, hfailed, hfolder, ?_, ?_, hmarks, hdisk, ?_, hcalls, hflushed⟩
  · refine Count.within_add hcalm.timed ?_ row
    change begun.task.tally.Within 0
    exact htally₁ ▸ ScanTally.within_empty
  · exact congrArg (· + 1) hprocessed₁
  · exact (Array.size_push ..).trans (congrArg (·.size + 1) hqueries)

theorem go_flushing {job : Scan α} {folder : Folder} {n : Nat}
    (haccepted : out.flushFault job.journal.flushCalls = none) (hwithin : job.task.tally.Within n)
    (hfew : n < 2 ^ 64)
    (hready : Snapshot.Ready job.journal.disk folder.path ScanTally.fileNames) :
    ∃ docs d, ((Job.flushing artifacts job).act out folder).go job.journal =
      (.ok (), job.journal.saved folder docs d) := by
  obtain ⟨docs, hdocs, hnames, htexts⟩ := hwithin.artifacts hfew
  obtain ⟨d, hflush, -⟩ :=
    Snapshot.flush_ready (hnames ▸ hready) (hnames ▸ ScanTally.family_fileNames) htexts
  refine ⟨docs, d, ?_⟩
  unfold Job.flushing Attempt.act artifacts
  rw [hdocs]
  exact Journal.go_flush haccepted hflush

/-- A scan whose messages come every zero contracts fails at its first row, although the corpus answers
and its files are written in the end. -/
theorem run_of_step_zero (hcalm : Calm out) (huntold : ∀ n, out.stop n = false)
    {row : Row} {rest : List Row} (hrows : out.rows = row :: rest) {catalog : List Definition}
    {folder : Folder} {batch : Int} {task : ScanTask}
    (htask : start? catalog folder batch (.whole 0) = .ok task) {journal : Journal α}
    (hstopped : journal.stopped = false)
    (hready : Snapshot.Ready journal.disk folder.path ScanTally.fileNames) :
    ∃ last, (run out).go ⟨false, false, task, journal⟩ = (.error .divisionByZero, last) ∧
      last.journal.queries.size = journal.queries.size + 1 ∧
      last.journal.flushCalls = journal.flushCalls + 1 ∧
      last.journal.flushed = journal.flushed + 1 := by
  obtain ⟨rfl, hstep, hprocessed, htally⟩ := start?_eq_ok htask
  obtain ⟨worked, hfailed, h⟩ := counts_first_of_zero hcalm huntold hrows hstep hprocessed htally hstopped
  have hready' : Snapshot.Ready worked.journal.disk worked.task.folder.path ScanTally.fileNames := by
    rw [h.disk, h.folder]
    exact hready
  obtain ⟨docs, d, hflush⟩ := go_flushing (hcalm.accepted _) h.within (by decide) hready'
  have hclose : Job.Closes out worked.task.folder artifacts (Scan.finish out) worked :=
    closes (by rw [h.processed]; decide)
  obtain ⟨last, hrun, houtward⟩ := Job.run_of_failed hfailed h.marks hclose
  rw [hflush] at houtward
  simp only [Journal.outward, Journal.saved, Prod.mk.injEq] at houtward
  obtain ⟨hqueries, -, -, hflushed, hcalls⟩ := houtward
  refine ⟨last, hrun, ?_, ?_, ?_⟩
  · rw [hqueries, h.queries]
  · rw [hcalls, h.flushCalls]
  · rw [hflushed, h.flushed]

end ProxyCensus.Scan
