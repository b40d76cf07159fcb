import ProxyCensus.Proofs.Corpus
import ProxyCensus.Proofs.Job.Flush
import ProxyCensus.Proofs.Job.Marks
import ProxyCensus.Proofs.Job.ScanRows

/-!
# The pages of a scan

What a scan has done after so many rows of the corpus: what it counted, what it asked for and what it
wrote. Each step of a scan has one lemma that says what becomes of this. Main statements: a scan that
is told to stop has counted the rows before, and one that is never told to stop has counted all of
them; either way it asked for the pages up to the last row and wrote its files after every full page.
-/

namespace ProxyCensus.Scan

variable {α : Type}

/-- Nothing comes in the way of a scan: no query and no flush fails, the stopwatch reads doubles, and
there are no more rows than a list can hold. -/
structure Calm (out : Outside α) : Prop where
  undisturbed : ∀ n, out.disturbance n = none
  accepted : ∀ n, out.flushFault n = none
  timed : ∀ n, ∃ x, out.stopwatch n = .real x
  few : out.rows.length < 2 ^ 64

def countedAt (out : Outside α) (start : Scan α) (rows : Nat) : Count :=
  (counted start).ofRows start.task.catalog out.stopwatch (out.rows.take rows)

def Saved (out : Outside α) (start : Scan α) (rows : Nat) (d : Disk) : Prop :=
  ∃ docs, (countedAt out start rows).tally.artifacts = .ok docs ∧
    Snapshot.Holds d start.task.folder.path docs

/-- Since `start`, a scan has counted the first `rows` rows of the corpus, and it has put the
questions `queries`. It has written its files once for every entry of `flushed`, which is the number
of rows that were counted by then. -/
structure Scanned (out : Outside α) (start : Scan α) (rows : Nat) (queries : List Query)
    (flushed : List Nat) (job : Scan α) : Prop where
  catalog : job.task.catalog = start.task.catalog
  folder : job.task.folder = start.task.folder
  batch : job.task.batch = start.task.batch
  counted : counted job = countedAt out start rows
  endless : job.task.progress.Endless
  processed : job.task.progress.processed = start.task.progress.processed + rows
  stopped : job.journal.stopped = start.journal.stopped
  queries : job.journal.queries.toList = start.journal.queries.toList ++ queries
  flushCalls : job.journal.flushCalls = start.journal.flushCalls + flushed.length
  flushes : ∃ disks, job.journal.flushes.toList = start.journal.flushes.toList ++ disks.map some ∧
    List.Forall₂ (Saved out start) flushed disks
  ready : Snapshot.Ready job.journal.disk start.task.folder.path ScanTally.fileNames

/-- A scan that goes on: it was asked before every row whether it is to stop, and it never was. -/
structure Going (out : Outside α) (start : Scan α) (rows : Nat) (queries : List Query)
    (flushed : List Nat) (job : Scan α) : Prop
    extends Scanned out start rows queries flushed job where
  stops : job.journal.stops = start.journal.stops + rows
  interrupted : job.interrupted = false

variable {out : Outside α} {start job : Scan α} {rows : Nat} {queries : List Query}
  {flushed : List Nat}

theorem drop_of_cons_prefix {row : Row} {rest l : List Row} {n : Nat}
    (h : row :: rest <+: l.drop n) : l[n]? = some row ∧ rest <+: l.drop (n + 1) := by
  obtain ⟨t, ht⟩ := h
  rw [List.cons_append] at ht
  refine ⟨?_, t, ?_⟩
  · have hzero := congrArg (·[0]?) ht
    simpa using hzero.symm
  · rw [← List.tail_drop, ← ht]
    rfl

theorem countedAt_succ {row : Row} (h : out.rows[rows]? = some row) :
    countedAt out start (rows + 1) =
      (countedAt out start rows).add start.task.catalog out.stopwatch row := by
  unfold countedAt Count.ofRows
  rw [List.take_add_one, h, List.foldl_append]
  rfl

/-- As long as nothing comes in the way, what was counted can be written. -/
theorem artifacts_countedAt (hcalm : Calm out) (hstart : start.task.tally.Within 0) (rows : Nat) :
    ∃ docs, (countedAt out start rows).tally.artifacts = .ok docs ∧
      docs.map (·.1) = ScanTally.fileNames ∧ ∀ doc ∈ docs, ∃ text, doc.2.render = .ok text := by
  have hwithin := @Count.within_ofRows start.task.catalog out.stopwatch hcalm.timed
    (out.rows.take rows) (counted start) 0 hstart
  have hlength : 0 + (out.rows.take rows).length < 2 ^ 64 := by
    have := hcalm.few
    rw [List.length_take]
    omega
  exact hwithin.artifacts hlength

theorem Scanned.ask (h : Scanned out start rows queries flushed job)
    (stops : Nat) (interrupted : Bool) :
    Scanned out start rows queries flushed
      { job with interrupted := interrupted, journal := { job.journal with stops := stops } } :=
  { h with }

theorem Going.query (h : Going out start rows queries flushed job) (hcalm : Calm out) (q : Query) :
    ∃ job', (Job.writing (Corpus.query out q)).go job = (.ok (), job') ∧
      Going out start rows (queries ++ [q]) flushed job' ∧ job'.completed = job.completed := by
  refine ⟨{ job with journal := { job.journal with queries := job.journal.queries.push q } },
    ?_, { h with queries := ?_ }, rfl⟩
  · unfold Job.writing
    rw [Act.go_on, Corpus.go_query hcalm.undisturbed]
  · simp [h.queries]

theorem Going.countPage (h : Going out start rows queries flushed job) (page : List Row) :
    ∃ job', (Scan.countPage page).go job = (.ok (), job') ∧
      Going out start rows queries flushed job' ∧ job'.completed = job.completed := by
  unfold Scan.countPage
  split
  · exact ⟨job, rfl, h, rfl⟩
  · exact ⟨_, rfl, { h with counted := h.counted }, rfl⟩

theorem Going.scanRow (h : Going out start rows queries flushed job) {row : Row}
    (hrow : out.rows[rows]? = some row) (stops : Nat) :
    ∃ job', (Scan.scanRow out row).go
        { job with journal := { job.journal with stops := stops } } = (.ok (), job') ∧
      Scanned out start (rows + 1) queries flushed job' ∧ job'.journal.stops = stops ∧
      job'.interrupted = false ∧ job'.completed = job.completed := by
  obtain ⟨skipped, logs, hgo⟩ := @go_scanRow α out row
    { job with journal := { job.journal with stops := stops } } h.endless
  refine ⟨_, hgo, { h with counted := ?_, endless := ?_, processed := ?_ }, rfl, h.interrupted, rfl⟩
  · rw [countedAt_succ hrow, ← h.counted, ← h.catalog]
    rfl
  · exact h.endless.add 1 skipped
  · change job.task.progress.processed + 1 = _
    rw [h.processed]
    omega

def told (out : Outside α) (start : Scan α) (row : Nat) : Bool :=
  out.stop (start.journal.stops + row) || start.journal.stopped

structure ToldFirst (out : Outside α) (start : Scan α) (row : Nat) : Prop where
  here : told out start row = true
  before : ∀ i < row, told out start i = false

theorem Going.go_shouldStop (h : Going out start rows queries flushed job) :
    (Job.shouldStop out).go job = (.ok (told out start rows),
      { job with
        interrupted := told out start rows
        journal := { job.journal with stops := start.journal.stops + (rows + 1) } }) := by
  have htold : told out start rows = (out.stop job.journal.stops || job.journal.stopped) := by
    rw [told, h.stops, h.stopped]
  have hstops : start.journal.stops + (rows + 1) = job.journal.stops + 1 := by
    rw [h.stops, Nat.add_assoc]
  rw [htold, hstops]
  exact Job.go_shouldStop out h.interrupted

theorem Going.scanRows_cons_of_told (h : Going out start rows queries flushed job)
    (htold : told out start rows = true) (row : Row) (rest : List Row) :
    ∃ job', (scanRows out (row :: rest)).go job = (.ok true, job') ∧
      Scanned out start rows queries flushed job' ∧ job'.interrupted = true ∧
      job'.completed = job.completed := by
  refine ⟨_, ?_, h.toScanned.ask (start.journal.stops + (rows + 1)) true, rfl, rfl⟩
  unfold scanRows
  rw [Act.go_bind, h.go_shouldStop, htold]
  rfl

theorem Going.scanRows_cons (h : Going out start rows queries flushed job)
    (htold : told out start rows = false) {row : Row} (hrow : out.rows[rows]? = some row)
    (rest : List Row) :
    ∃ job', (scanRows out (row :: rest)).go job = (scanRows out rest).go job' ∧
      Going out start (rows + 1) queries flushed job' ∧ job'.completed = job.completed := by
  obtain ⟨job', hgo, hscanned, hstops, hgoing, hcompleted⟩ :=
    h.scanRow hrow (start.journal.stops + (rows + 1))
  refine ⟨job', ?_, ⟨hscanned, hstops, hgoing⟩, hcompleted⟩
  rw [scanRows, Act.go_bind, h.go_shouldStop, htold]
  change Act.go (Scan.scanRow out row >>= fun _ => scanRows out rest) _ = _
  rw [← h.interrupted, Act.go_bind, hgo]

/-- On a page before whose rows a scan is never told to stop, it counts all of them. -/
theorem scanRows_of_going (page : List Row) :
    ∀ {rows : Nat} {job : Scan α}, Going out start rows queries flushed job →
      page <+: out.rows.drop rows →
      (∀ i < rows + page.length, told out start i = false) →
      ∃ job', (scanRows out page).go job = (.ok false, job') ∧
        Going out start (rows + page.length) queries flushed job' ∧
        job'.completed = job.completed := by
  induction page with
  | nil => exact fun h _ _ => ⟨_, rfl, h, rfl⟩
  | cons row rest ih =>
    intro rows job h hpage htold
    obtain ⟨hrow, hrest⟩ := drop_of_cons_prefix hpage
    rw [List.length_cons, Nat.add_comm rest.length, ← Nat.add_assoc] at htold ⊢
    obtain ⟨job₁, hgo₁, h₁, hcompleted₁⟩ := h.scanRows_cons (htold rows (by omega)) hrow rest
    obtain ⟨job₂, hgo₂, h₂, hcompleted₂⟩ := ih h₁ hrest htold
    exact ⟨job₂, hgo₁.trans hgo₂, h₂, hcompleted₂.trans hcompleted₁⟩

/-- A page is left at the row before which the scan is told to stop. -/
theorem scanRows_of_told {k : Nat} (hk : ToldFirst out start k) (page : List Row) :
    ∀ {rows : Nat} {job : Scan α}, Going out start rows queries flushed job →
      page <+: out.rows.drop rows → rows ≤ k → k < rows + page.length →
      ∃ job', (scanRows out page).go job = (.ok true, job') ∧
        Scanned out start k queries flushed job' ∧ job'.interrupted = true ∧
        job'.completed = job.completed := by
  induction page with
  | nil =>
    intro rows job _ _ hle hlt
    exact absurd hlt (Nat.not_lt_of_le hle)
  | cons row rest ih =>
    intro rows job h hpage hle hlt
    obtain ⟨hrow, hrest⟩ := drop_of_cons_prefix hpage
    rcases Nat.eq_or_lt_of_le hle with rfl | hbefore
    · exact h.scanRows_cons_of_told hk.here row rest
    · rw [List.length_cons] at hlt
      obtain ⟨job₁, hgo₁, h₁, hcompleted₁⟩ := h.scanRows_cons (hk.before rows hbefore) hrow rest
      obtain ⟨job₂, hgo₂, h₂, hinterrupted, hcompleted₂⟩ := ih h₁ hrest hbefore (by omega)
      exact ⟨job₂, hgo₁.trans hgo₂, h₂, hinterrupted, hcompleted₂.trans hcompleted₁⟩

theorem Scanned.flush (h : Scanned out start rows queries flushed job) (hcalm : Calm out)
    (hstart : start.task.tally.Within 0) :
    ∃ job', (Scan.flush out).go job = (.ok (), job') ∧
      Scanned out start rows queries (flushed ++ [rows]) job' ∧
      Saved out start rows job'.journal.disk ∧ job'.journal.stops = job.journal.stops ∧
      job'.interrupted = job.interrupted ∧ job'.completed = job.completed := by
  obtain ⟨docs, hdocs, hnames, htexts⟩ := artifacts_countedAt hcalm hstart rows
  have hready : Snapshot.Ready job.journal.disk start.task.folder.path (docs.map (·.1)) :=
    hnames ▸ h.ready
  obtain ⟨d, hgo, hflushed⟩ :=
    Snapshot.flush_ready hready (hnames ▸ ScanTally.family_fileNames) htexts
  have hne : docs ≠ [] := fun hnil => by simp [hnil, ScanTally.fileNames] at hnames
  have hsaved : Saved out start rows d := ⟨docs, hdocs, hflushed.toHolds⟩
  have htally : job.task.tally.artifacts = .ok docs := by
    rw [← hdocs, ← h.counted]
    rfl
  obtain ⟨disks, hdisks, hall⟩ := h.flushes
  refine ⟨{ job with journal := job.journal.saved job.task.folder docs d }, ?_,
    { h with flushCalls := ?_, flushes := ⟨disks ++ [d], ?_, ?_⟩, ready := ?_ },
    hsaved, rfl, rfl, rfl⟩
  · unfold Scan.flush Job.writing
    rw [Act.go_bind, Act.go_state]
    dsimp only
    rw [htally, Act.go_bind, Act.go_lift]
    dsimp only
    rw [Act.go_on, Journal.go_flush (hcalm.accepted _) (h.folder ▸ hgo)]
  · simp [Journal.saved, h.flushCalls, Nat.add_assoc]
  · simp [Journal.saved, hdisks]
  · exact List.rel_append hall (List.Forall₂.cons hsaved .nil)
  · exact hnames ▸ hflushed.ready hready hne

def pageQueries (batch pages : Nat) : List Query :=
  (List.range pages).map fun page => .page ((page * batch : Nat) : Int) (batch : Int)

def pageEnds (batch pages : Nat) : List Nat :=
  (List.range pages).map fun page => (page + 1) * batch

theorem pageQueries_succ (batch pages : Nat) : pageQueries batch (pages + 1) =
    pageQueries batch pages ++ [.page ((pages * batch : Nat) : Int) (batch : Int)] := by
  simp [pageQueries, List.range_succ]

theorem pageEnds_succ (batch pages : Nat) :
    pageEnds batch (pages + 1) = pageEnds batch pages ++ [(pages + 1) * batch] := by
  simp [pageEnds, List.range_succ]

theorem page_prefix_drop (l : List Row) (offset batch : Nat) :
    Corpus.page l offset batch <+: l.drop offset :=
  List.take_prefix _ _

theorem length_page (l : List Row) (offset batch : Nat) :
    (Corpus.page l offset batch).length = min batch (l.length - offset) := by
  simp [Corpus.page]

/-- A page is asked for and noted before its rows are counted. Unless the scan is told to stop among
them, its files are written, and it goes on with the next page if this one was full. -/
theorem Going.go_opening (h : Going out start rows queries flushed job) (hcalm : Calm out)
    {batch : Nat} (hbatch : 0 < batch) :
    ∃ job', Going out start rows (queries ++ [.page (rows : Int) (batch : Int)]) flushed job' ∧
      job'.completed = job.completed ∧
      ∀ {stop : Bool} {job₁ : Scan α},
        (scanRows out (Corpus.page out.rows rows batch)).go job' = (.ok stop, job₁) →
        (scanPages out batch hbatch rows).go job = Act.go (if stop then pure () else do
          Scan.flush out
          if out.rows.length - rows < batch then pure () else scanPages out batch hbatch (rows + batch))
          job₁ := by
  obtain ⟨job₁, hgo₁, h₁, hcompleted₁⟩ := h.query hcalm (.page (rows : Int) (batch : Int))
  obtain ⟨job₂, hgo₂, h₂, hcompleted₂⟩ := h₁.countPage (Corpus.page out.rows rows batch)
  refine ⟨job₂, h₂, hcompleted₂.trans hcompleted₁, fun hgo₃ => ?_⟩
  have hlength := length_page out.rows rows batch
  have hlast : (Corpus.page out.rows rows batch).length < batch ↔ out.rows.length - rows < batch := by
    omega
  rw [scanPages, writing_fetchPage, Act.go_bind, hgo₁]
  dsimp only
  rw [Act.go_bind, hgo₂]
  dsimp only
  rw [Act.go_bind, hgo₃]
  simp only [hlast, dite_eq_ite]

/-- A page on which the scan is never told to stop is counted and its files are written. The scan goes
on with the next page if this one was full. -/
theorem Going.go_page (h : Going out start rows queries flushed job) (hcalm : Calm out)
    (hstart : start.task.tally.Within 0) {batch : Nat} (hbatch : 0 < batch)
    (htold : ∀ i < rows + min batch (out.rows.length - rows), told out start i = false) :
    ∃ job', (scanPages out batch hbatch rows).go job =
        (if out.rows.length - rows < batch then (.ok (), job')
          else (scanPages out batch hbatch (rows + batch)).go job') ∧
      Going out start (rows + min batch (out.rows.length - rows))
        (queries ++ [.page (rows : Int) (batch : Int)])
        (flushed ++ [rows + min batch (out.rows.length - rows)]) job' ∧
      job'.completed = job.completed := by
  have hlength := length_page out.rows rows batch
  obtain ⟨job₁, h₁, hcompleted₁, hopening⟩ := h.go_opening hcalm hbatch
  obtain ⟨job₂, hgo₂, h₂, hcompleted₂⟩ := scanRows_of_going (Corpus.page out.rows rows batch) h₁
    (page_prefix_drop out.rows rows batch) (hlength ▸ htold)
  obtain ⟨job₃, hgo₃, h₃, -, hstops, hinterrupted, hcompleted₃⟩ := h₂.flush hcalm hstart
  refine ⟨job₃, ?_, ?_, hcompleted₃.trans (hcompleted₂.trans hcompleted₁)⟩
  · rw [hopening hgo₂, if_neg Bool.false_ne_true, Act.go_bind, hgo₃]
    dsimp only
    split <;> rfl
  · rw [hlength] at h₃
    exact ⟨h₃, by rw [hstops, h₂.stops, hlength], hinterrupted.trans h₂.interrupted⟩

/-- The scan is left in the page before one of whose rows it is told to stop. -/
theorem Going.go_lastPage (h : Going out start rows queries flushed job) (hcalm : Calm out)
    {batch k : Nat} (hbatch : 0 < batch) (hk : ToldFirst out start k) (hfrom : rows ≤ k)
    (hto : k < rows + batch) (hlt : k < out.rows.length) :
    ∃ job', (scanPages out batch hbatch rows).go job = (.ok (), job') ∧
      Scanned out start k (queries ++ [.page (rows : Int) (batch : Int)]) flushed job' ∧
      job'.interrupted = true ∧ job'.completed = job.completed := by
  have hlength := length_page out.rows rows batch
  obtain ⟨job₁, h₁, hcompleted₁, hopening⟩ := h.go_opening hcalm hbatch
  obtain ⟨job₂, hgo₂, h₂, hinterrupted, hcompleted₂⟩ := scanRows_of_told hk
    (Corpus.page out.rows rows batch) h₁ (page_prefix_drop out.rows rows batch) hfrom (by omega)
  refine ⟨job₂, ?_, h₂, hinterrupted, hcompleted₂.trans hcompleted₁⟩
  rw [hopening hgo₂]
  rfl

/-- Full pages on which the scan is never told to stop are counted one after another, and the scan goes on
with the page behind them. -/
theorem go_fullPages (hcalm : Calm out) (hstart : start.task.tally.Within 0) {batch : Nat}
    (hbatch : 0 < batch) (last : Nat) (hfull : last * batch ≤ out.rows.length)
    (htold : ∀ i < last * batch, told out start i = false) (left : Nat) :
    ∀ {page : Nat} {job : Scan α}, page + left = last →
      Going out start (page * batch) (pageQueries batch page) (pageEnds batch page) job →
      ∃ job', (scanPages out batch hbatch (page * batch)).go job =
          (scanPages out batch hbatch (last * batch)).go job' ∧
        Going out start (last * batch) (pageQueries batch last) (pageEnds batch last) job' ∧
        job'.completed = job.completed := by
  induction left with
  | zero =>
    rintro page job rfl h
    exact ⟨job, rfl, h, rfl⟩
  | succ left ih =>
    intro page job hpage h
    have hlater : page * batch + batch ≤ last * batch := by
      rw [← Nat.succ_mul]
      exact Nat.mul_le_mul_right batch (by omega)
    have hrows : min batch (out.rows.length - page * batch) = batch := by omega
    obtain ⟨job₁, hgo₁, h₁, hcompleted₁⟩ := h.go_page hcalm hstart hbatch fun i hi =>
      htold i (by omega)
    rw [if_neg (by omega)] at hgo₁
    rw [hrows, ← Nat.succ_mul, ← pageQueries_succ, ← pageEnds_succ] at h₁
    obtain ⟨job₂, hgo₂, h₂, hcompleted₂⟩ := ih (by omega) h₁
    rw [← Nat.succ_mul] at hgo₁
    exact ⟨job₂, hgo₁.trans hgo₂, h₂, hcompleted₂.trans hcompleted₁⟩

/-- A scan that is told to stop before a row counts the rows before it. -/
theorem scanPages_of_told (hcalm : Calm out) (hstart : start.task.tally.Within 0) {batch k : Nat}
    (hbatch : 0 < batch) (hk : ToldFirst out start k) (hlt : k < out.rows.length)
    (h : Going out start 0 [] [] job) :
    ∃ job', (scanPages out batch hbatch 0).go job = (.ok (), job') ∧
      Scanned out start k (pageQueries batch (k / batch + 1)) (pageEnds batch (k / batch)) job' ∧
      job'.interrupted = true ∧ job'.completed = job.completed := by
  have hdiv := Nat.div_add_mod' k batch
  have hmod := Nat.mod_lt k hbatch
  obtain ⟨job₁, hgo₁, h₁, hcompleted₁⟩ := go_fullPages hcalm hstart hbatch (k / batch) (by omega)
    (fun i hi => hk.before i (by omega)) (k / batch) (Nat.zero_add _) (by rw [Nat.zero_mul]; exact h)
  obtain ⟨job₂, hgo₂, h₂, hinterrupted, hcompleted₂⟩ :=
    h₁.go_lastPage hcalm hbatch hk (by omega) (by omega) hlt
  rw [Nat.zero_mul] at hgo₁
  rw [← pageQueries_succ] at h₂
  exact ⟨job₂, hgo₁.trans hgo₂, h₂, hinterrupted, hcompleted₂.trans hcompleted₁⟩

/-- A scan that is never told to stop counts all the rows. -/
theorem scanPages_of_going (hcalm : Calm out) (hstart : start.task.tally.Within 0) {batch : Nat}
    (hbatch : 0 < batch) (htold : ∀ i < out.rows.length, told out start i = false)
    (h : Going out start 0 [] [] job) :
    ∃ job', (scanPages out batch hbatch 0).go job = (.ok (), job') ∧
      Scanned out start out.rows.length (pageQueries batch (out.rows.length / batch + 1))
        (pageEnds batch (out.rows.length / batch) ++ [out.rows.length]) job' ∧
      job'.interrupted = false ∧ job'.completed = job.completed := by
  have hdiv := Nat.div_add_mod' out.rows.length batch
  have hmod := Nat.mod_lt out.rows.length hbatch
  obtain ⟨job₁, hgo₁, h₁, hcompleted₁⟩ := go_fullPages hcalm hstart hbatch
    (out.rows.length / batch) (by omega) (fun i hi => htold i (by omega))
    (out.rows.length / batch) (Nat.zero_add _) (by rw [Nat.zero_mul]; exact h)
  obtain ⟨job₂, hgo₂, h₂, hcompleted₂⟩ := h₁.go_page hcalm hstart hbatch fun i hi =>
    htold i (by omega)
  have hrest : out.rows.length / batch * batch +
      min batch (out.rows.length - out.rows.length / batch * batch) = out.rows.length := by omega
  rw [Nat.zero_mul] at hgo₁
  rw [if_pos (by omega)] at hgo₂
  rw [hrest, ← pageQueries_succ] at h₂
  exact ⟨job₂, hgo₁.trans hgo₂, h₂.toScanned, h₂.interrupted, hcompleted₂.trans hcompleted₁⟩

end ProxyCensus.Scan
