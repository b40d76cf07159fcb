import Mathlib.Data.List.Range
import ProxyCensus.Proofs.Job.ScanInterruption

/-!
# The course of a scan

A scan written out as the list of its steps. Main statements: work that returns without having been
told to stop has taken exactly the steps of all pages, in which every row of the corpus is searched
once and in its order; and a scan that nothing comes in the way of returns, has asked for these pages,
and has written its files after each of them and once more.
-/

namespace ProxyCensus.Scan

variable {α : Type}

/-- What a scan does while it works. -/
inductive Step where
  | ask (offset limit : Nat)
  | countPage (page : List Row)
  | heed
  | scanRow (row : Row)
  | flush

namespace Step

def act (out : Outside α) : Step → Act (Scan α) Unit
  | ask offset limit => Job.writing (Corpus.query out (.page offset limit))
  | countPage page => Scan.countPage page
  | heed => do let _ ← Job.shouldStop out
  | scanRow row => Scan.scanRow out row
  | flush => Scan.flush out

def row? : Step → Option Row
  | scanRow row => some row
  | _ => none

def pages : Step → Nat
  | countPage page => if page.isEmpty then 0 else 1
  | _ => 0

end Step

/-- The steps for the rows of a page: before each of them the scan asks whether it is to stop. -/
def rowSteps (page : List Row) : List Step :=
  page.flatMap fun row => [.heed, .scanRow row]

def pageSteps (out : Outside α) (batch offset : Nat) : List Step :=
  let page := Corpus.page out.rows offset batch
  .ask offset batch :: .countPage page :: (rowSteps page ++ [.flush])

def steps (out : Outside α) (batch pages : Nat) : List Step :=
  (List.range pages).flatMap fun page => pageSteps out batch (page * batch)

inductive Takes (out : Outside α) : Scan α → List Step → Scan α → Prop where
  | nil (job : Scan α) : Takes out job [] job
  | cons {job job₁ job' : Scan α} {step : Step} {rest : List Step}
    (h : (step.act out).go job = (.ok (), job₁)) (hrest : Takes out job₁ rest job') :
    Takes out job (step :: rest) job'

variable {out : Outside α} {job job₁ job' : Scan α} {batch : Nat}

theorem Takes.append {first later : List Step} (h : Takes out job first job₁)
    (hlater : Takes out job₁ later job') : Takes out job (first ++ later) job' := by
  induction h with
  | nil _ => exact hlater
  | cons h _ ih => exact .cons h (ih hlater)

theorem interrupted_of_scanRows {page : List Row} :
    ∀ {job : Scan α}, (scanRows out page).go job = (.ok true, job') → job'.interrupted = true := by
  induction page with
  | nil =>
    intro job h
    cases h
  | cons row rest ih =>
    intro job h
    obtain ⟨stop, job₁, hstop, h⟩ := Act.go_bind_eq_ok h
    cases stop with
    | true =>
      obtain rfl := (Prod.mk.inj h).2
      exact Job.interrupted_of_shouldStop hstop
    | false =>
      obtain ⟨-, job₂, -, h⟩ := Act.go_bind_eq_ok h
      exact ih h

theorem takes_scanRows {page : List Row} : ∀ {job : Scan α},
    (scanRows out page).go job = (.ok false, job') → Takes out job (rowSteps page) job' := by
  induction page with
  | nil =>
    intro job h
    obtain rfl := (Prod.mk.inj h).2
    exact .nil job
  | cons row rest ih =>
    intro job h
    obtain ⟨stop, job₁, hstop, h⟩ := Act.go_bind_eq_ok h
    cases stop with
    | true => cases h
    | false =>
      obtain ⟨_, job₂, hrow, h⟩ := Act.go_bind_eq_ok h
      have hheed : (Step.act out .heed).go job = (.ok (), job₁) := by
        rw [Step.act, Act.go_bind, hstop]
        rfl
      exact .cons hheed (.cons hrow (ih h))

/-- Where a scan is not told to stop, it takes the steps of a page, and goes on if the page was full. -/
theorem takes_page (hbatch : 0 < batch) {offset : Nat}
    (h : (scanPages out batch hbatch offset).go job = (.ok (), job'))
    (hgoing : job'.interrupted = false) :
    ∃ job₁, Takes out job (pageSteps out batch offset) job₁ ∧
      if out.rows.length - offset < batch then job' = job₁
      else (scanPages out batch hbatch (offset + batch)).go job₁ = (.ok (), job') := by
  rw [scanPages, writing_fetchPage] at h
  obtain ⟨_, job₁, hask, h⟩ := Act.go_bind_eq_ok h
  obtain ⟨_, job₂, hcount, h⟩ := Act.go_bind_eq_ok h
  obtain ⟨stop, job₃, hrows, h⟩ := Act.go_bind_eq_ok h
  cases stop with
  | true =>
    obtain rfl := (Prod.mk.inj h).2
    rw [interrupted_of_scanRows hrows] at hgoing
    cases hgoing
  | false =>
    obtain ⟨_, job₄, hflush, h⟩ := Act.go_bind_eq_ok h
    have htakes : Takes out job (pageSteps out batch offset) job₄ :=
      .cons hask (.cons hcount ((takes_scanRows hrows).append (.cons hflush (.nil job₄))))
    refine ⟨job₄, htakes, ?_⟩
    have hlength := length_page out.rows offset batch
    by_cases hlast : out.rows.length - offset < batch
    · rw [if_pos hlast]
      rw [dif_pos (by omega)] at h
      exact (Prod.mk.inj h).2.symm
    · rw [if_neg hlast]
      rwa [dif_neg (by omega)] at h

theorem steps_succ (out : Outside α) (batch pages : Nat) :
    steps out batch (pages + 1) = steps out batch pages ++ pageSteps out batch (pages * batch) := by
  simp [steps, List.range_succ]

/-- From one of its pages on, a scan that is not told to stop has taken the steps of all pages. -/
theorem takes_scanPages (hbatch : 0 < batch) (hgoing : job'.interrupted = false) (left : Nat)
    {begun : Scan α} : ∀ {page : Nat} {job : Scan α}, page + left = out.rows.length / batch →
      Takes out begun (steps out batch page) job →
      (scanPages out batch hbatch (page * batch)).go job = (.ok (), job') →
      Takes out begun (steps out batch (out.rows.length / batch + 1)) job' := by
  have hdiv := Nat.div_add_mod' out.rows.length batch
  have hmod := Nat.mod_lt out.rows.length hbatch
  induction left with
  | zero =>
    intro page job hpage hbefore h
    obtain rfl : page = out.rows.length / batch := hpage
    obtain ⟨job₁, htakes, hlast⟩ := takes_page hbatch h hgoing
    rw [if_pos (by omega)] at hlast
    rw [steps_succ, hlast]
    exact hbefore.append htakes
  | succ left ih =>
    intro page job hpage hbefore h
    have hlater : page * batch + batch ≤ out.rows.length := by
      rw [← Nat.succ_mul]
      exact (Nat.mul_le_mul_right batch (by omega)).trans (Nat.div_mul_le_self _ batch)
    obtain ⟨job₁, htakes, hnext⟩ := takes_page hbatch h hgoing
    rw [if_neg (by omega), ← Nat.succ_mul] at hnext
    have hsteps := hbefore.append htakes
    rw [← steps_succ] at hsteps
    exact ih (by omega) hsteps hnext

/-- Work that returns without having been told to stop has taken the steps of all pages. -/
theorem takes_work (h : (work out).go job = (.ok (), job')) (hgoing : job'.interrupted = false) :
    Takes out job (steps out job.task.batch (out.rows.length / job.task.batch + 1)) job' := by
  have hpages : (scanPages out job.task.batch job.task.batch_pos (0 * job.task.batch)).go job =
      (.ok (), job') := by
    rw [Nat.zero_mul]
    exact h
  exact takes_scanPages job.task.batch_pos hgoing _ (Nat.zero_add _) (.nil job) hpages

theorem rows_rowSteps (page : List Row) : (rowSteps page).filterMap Step.row? = page := by
  induction page with
  | nil => rfl
  | cons row rest ih => exact congrArg (row :: ·) ih

theorem rows_pageSteps (out : Outside α) (batch offset : Nat) :
    (pageSteps out batch offset).filterMap Step.row? = Corpus.page out.rows offset batch := by
  rw [pageSteps, List.filterMap_cons_none rfl, List.filterMap_cons_none rfl, List.filterMap_append,
    rows_rowSteps]
  exact List.append_nil _

/-- In the steps of the first pages as many rows are searched as these pages hold. -/
theorem rows_steps_take (out : Outside α) (batch pages : Nat) :
    (steps out batch pages).filterMap Step.row? = out.rows.take (pages * batch) := by
  induction pages with
  | zero => simp [steps]
  | succ pages ih =>
    rw [steps_succ, List.filterMap_append, ih, rows_pageSteps, Nat.succ_mul, List.take_add]
    rfl

/-- In the steps of all pages every row is searched once, in the order of the corpus. -/
theorem rows_steps (hbatch : 0 < batch) :
    (steps out batch (out.rows.length / batch + 1)).filterMap Step.row? = out.rows := by
  rw [rows_steps_take, List.take_of_length_le]
  exact (Nat.lt_mul_of_div_lt (Nat.lt_succ_self _) hbatch).le

theorem pages_rowSteps (page : List Row) : ((rowSteps page).map Step.pages).sum = 0 := by
  induction page with
  | nil => rfl
  | cons row rest ih => simpa [rowSteps, Step.pages] using ih

theorem pages_pageSteps (hbatch : 0 < batch) (offset : Nat) :
    ((pageSteps out batch offset).map Step.pages).sum =
      if offset < out.rows.length then 1 else 0 := by
  have hlength := length_page out.rows offset batch
  simp only [pageSteps, List.map_cons, List.map_append, List.sum_cons, List.sum_append,
    pages_rowSteps, Step.pages, List.isEmpty_iff_length_eq_zero, hlength]
  by_cases hmore : offset < out.rows.length
  · rw [if_neg (by omega), if_pos hmore]
    rfl
  · rw [if_pos (by omega), if_neg hmore]
    rfl

theorem pages_steps (hbatch : 0 < batch) (pages : Nat) :
    ((steps out batch pages).map Step.pages).sum =
      min pages ((out.rows.length + (batch - 1)) / batch) := by
  induction pages with
  | zero => simp [steps]
  | succ pages ih =>
    have hmore : pages * batch < out.rows.length ↔
        pages < (out.rows.length + (batch - 1)) / batch := by
      rw [Nat.lt_iff_add_one_le (m := pages), Nat.le_div_iff_mul_le hbatch, Nat.succ_mul]
      omega
    rw [steps_succ, List.map_append, List.sum_append, ih, pages_pageSteps hbatch]
    split <;> omega

theorem Step.go_pages (step : Step) (h : (step.act out).go job = (.ok (), job')) :
    job'.task.pages = job.task.pages + step.pages := by
  have haside : Aside fun job : Scan α => job.task.pages := fun _ _ _ _ => rfl
  cases step with
  | ask offset limit => exact (haside.unwritten.keeps _).of_go h
  | countPage page =>
    change (Scan.countPage page).go job = _ at h
    unfold Scan.countPage at h
    cases hempty : page.isEmpty with
    | true =>
      rw [if_pos hempty] at h
      obtain rfl := (Prod.mk.inj h).2
      simp [Step.pages, hempty]
    | false =>
      rw [if_neg (by simp [hempty])] at h
      obtain rfl := (Prod.mk.inj h).2
      simp [Step.pages, hempty]
  | heed =>
    have hkeeps : Act.Keeps (fun job : Scan α => job.task.pages) (act out heed) :=
      .bind (Job.shouldStop_keeps (fun _ _ _ => rfl) out) fun _ => .pure _
    exact hkeeps.of_go h
  | scanRow row => exact (scanRow_keeps out haside row).of_go h
  | flush => exact (flush_keeps out haside.unwritten).of_go h

theorem Takes.pages {steps : List Step} (h : Takes out job steps job') :
    job'.task.pages = job.task.pages + (steps.map Step.pages).sum := by
  induction h with
  | nil _ => rfl
  | @cons _ _ _ step _ h _ ih =>
    rw [ih, step.go_pages h, List.map_cons, List.sum_cons, Nat.add_assoc]

/-- After a page the rows up to its end are counted, and after the last page all of them. -/
theorem pageEnds_concat (hbatch : 0 < batch) (rows : Nat) :
    pageEnds batch (rows / batch) ++ [rows] =
      (List.range (rows / batch + 1)).map fun page => min ((page + 1) * batch) rows := by
  have hlast : rows ≤ (rows / batch + 1) * batch :=
    (Nat.lt_mul_of_div_lt (Nat.lt_succ_self _) hbatch).le
  have hfull : pageEnds batch (rows / batch) =
      (List.range (rows / batch)).map fun page => min ((page + 1) * batch) rows := by
    refine List.map_congr_left fun page hpage => (Nat.min_eq_left ?_).symm
    exact (Nat.mul_le_mul_right batch (List.mem_range.1 hpage)).trans (Nat.div_mul_le_self rows batch)
  rw [hfull, List.range_succ, List.map_append, List.map_singleton, Nat.min_eq_right hlast]

/-- How a scan goes that nothing comes in the way of: `begun` is the scan before its first page,
`worked` the scan after its last page, and `last` the scan at its end. -/
structure Covered (out : Outside α) (batch : Nat) (start begun worked last : Scan α) : Prop where
  begin : (Scan.begin out).go start = (.ok (), begun)
  work : (Scan.work out).go begun = (.ok (), worked)
  takes : Takes out begun (steps out batch (out.rows.length / batch + 1)) worked
  run : (Scan.run out).go start = (.ok (), last)
  completed : last.completed = true
  queries : last.journal.queries.toList =
    start.journal.queries.toList ++ pageQueries batch (out.rows.length / batch + 1)
  /-- As many pages are counted as it takes for all rows, the last one perhaps not full. -/
  pages : last.task.pages = (out.rows.length + (batch - 1)) / batch
  flushCalls : last.journal.flushCalls = start.journal.flushCalls + (out.rows.length / batch + 2)
  /-- What stands on the disk after each flush: one flush for every page, and one at the end. -/
  flushes : ∃ disks, last.journal.flushes.toList =
      start.journal.flushes.toList ++ disks.map some ∧
    List.Forall₂ (Saved out start)
      ((List.range (out.rows.length / batch + 1)).map
        (fun page => min ((page + 1) * batch) out.rows.length) ++ [out.rows.length]) disks

variable {start : Scan α}

theorem Fresh.covered (hfresh : Fresh start) (hcalm : Calm out) (hpages : start.task.pages = 0)
    (htold : ∀ k < out.rows.length, told out start k = false) :
    ∃ begun worked last, Covered out start.task.batch start begun worked last := by
  obtain ⟨begun, worked, hbegin, hbatch, hwork, h, hgoing⟩ := hfresh.work_of_untold hcalm htold
  have hpos : 0 < start.task.batch := start.task.batch_pos
  have htakes : Takes out begun
      (steps out start.task.batch (out.rows.length / start.task.batch + 1)) worked :=
    hbatch ▸ takes_work hwork hgoing
  have hgo : Act.go (do Scan.begin out; Scan.work out) start = (.ok (), worked) := by
    rw [Act.go_bind, hbegin]
    exact hwork
  obtain ⟨last, hfinish, hlast, -, -, hcomplete⟩ :=
    (h.settle !worked.interrupted).finish hcalm hfresh (Nat.le_refl _)
  have haside : Aside fun job : Scan α => job.task.pages := fun _ _ _ _ => rfl
  have hbegun := (begin_keeps out haside).of_go hbegin
  have hended := (finish_keeps out haside).of_go hfinish
  refine ⟨begun, worked, last, hbegin, hwork, htakes, Job.go_run hgo hfinish, ?_, hlast.queries,
    ?_, ?_, ?_⟩
  · rw [hcomplete, hgoing]
    rfl
  · have hcounted : worked.task.pages = (out.rows.length + (start.task.batch - 1)) /
        start.task.batch := by
      rw [htakes.pages, hbegun, hpages, Nat.zero_add, pages_steps hpos, Nat.min_eq_right]
      rw [← Nat.lt_add_one_iff, Nat.div_lt_iff_lt_mul hpos, Nat.succ_mul, Nat.succ_mul]
      have := Nat.lt_mul_of_div_lt (Nat.lt_succ_self (out.rows.length / start.task.batch)) hpos
      rw [Nat.succ_mul] at this
      omega
    exact hended.trans hcounted
  · rw [hlast.flushCalls, List.length_append, List.length_append, length_pageEnds]
    rfl
  · rw [← pageEnds_concat hpos]
    exact hlast.flushes

/-- A scan that nothing comes in the way of, and that is never told to stop, comes to its end. It asks
for one page after another, each at the end of the one before, up to the first that is not full; it
searches every row of the corpus once and in its order; and after every page it writes the files of
the rows up to there. -/
theorem covers_corpus_once (catalog : List Definition) (folder : Folder) (hbatch : 0 < batch)
    {step : Int} (hstep : step ≠ 0) (hcalm : Calm out) (hunstopped : ∀ n, out.stop n = false)
    {journal : Journal α} (hgoing : journal.stopped = false)
    (hready : Snapshot.Ready journal.disk folder.path ScanTally.fileNames) :
    (steps out batch (out.rows.length / batch + 1)).filterMap Step.row? = out.rows ∧
      ∃ task : ScanTask, start? catalog folder batch (.whole step) = .ok task ∧
        ∃ begun worked last,
          Covered out batch (⟨false, false, task, journal⟩ : Scan α) begun worked last := by
  obtain ⟨task, htask, hfresh, -, -, rfl⟩ := exists_fresh catalog folder hbatch hstep hready
  have hpages : task.pages = 0 := by
    unfold start? at htask
    split at htask
    · exact Except.ok.inj htask ▸ rfl
    · cases htask
  refine ⟨rows_steps hbatch, task, htask, hfresh.covered hcalm hpages fun k _ => ?_⟩
  rw [told, hunstopped, Bool.false_or]
  exact hgoing

theorem covers_corpus_once_of_three_contracts :
    (steps { threeContracts with stop := fun _ => false } 2 2).filterMap Step.row? =
        threeContracts.rows ∧
      ∃ (task : ScanTask) (begun worked last : Scan Unit),
        start? Catalog.builtIn ⟨["out"], "out"⟩ 2 (.whole 5000) = .ok task ∧
        Covered { threeContracts with stop := fun _ => false } 2
          ⟨false, false, task, { clock := () }⟩ begun worked last := by
  have hcalm : Calm { threeContracts with stop := fun _ => false } :=
    ⟨fun _ => rfl, fun _ => rfl, fun _ => ⟨0, rfl⟩, by decide⟩
  have hready : Snapshot.Ready {} ["out"] ScanTally.fileNames :=
    Snapshot.ready_empty (by decide) (by decide)
  obtain ⟨hrows, task, htask, begun, worked, last, h⟩ :=
    @covers_corpus_once Unit { threeContracts with stop := fun _ => false } 2 Catalog.builtIn
      ⟨["out"], "out"⟩ (by decide) 5000 (by decide) hcalm (fun _ => rfl) { clock := () } rfl hready
  exact ⟨hrows, task, begun, worked, last, htask, h⟩

end ProxyCensus.Scan
