import ProxyCensus.Proofs.Job.Attempts
import ProxyCensus.Proofs.Job.Marks

/-!
# What surfaces of a job

A job makes attempts in its work until one of them fails, and in its end one more, to write its files.
Main statement: its run raises the first failure of all of them, also when the last one fails as well,
and its folder shows what was written last.
-/

namespace ProxyCensus

open Act (after Ends FailsAt)
open Snapshot (PlainFamily Shown Unblocked)

variable {τ α : Type} {out : Outside α} {folder : Folder}
  {Whole : Except Failure (List (String × Document)) → Prop}

namespace Job

open Act (Keeps)

variable {artifacts : τ → Except Failure (List (String × Document))}

/-- Between two states of a job nothing has happened that others can tell, and its files and its marks
are the same. -/
structure Alike (artifacts : τ → Except Failure (List (String × Document))) (job job' : Job τ α) :
    Prop where
  outward : job'.journal.outward = job.journal.outward
  marks : job'.marks = job.marks
  artifacts : artifacts job'.task = artifacts job.task

def flushing (artifacts : τ → Except Failure (List (String × Document))) (job : Job τ α) : Attempt :=
  .flush (artifacts job.task)

/-- The end of a job makes one attempt, to write its files. That it fails counts only when nothing has
failed before. -/
structure Closes (out : Outside α) (folder : Folder)
    (artifacts : τ → Except Failure (List (String × Document))) (finish : Act (Job τ α) Unit)
    (job : Job τ α) : Prop where
  result : (finish.go job).1 = if job.completed || job.interrupted then
    (((flushing artifacts job).act out folder).go job.journal).1 else .ok ()
  outward : (finish.go job).2.journal.outward =
    (((flushing artifacts job).act out folder).go job.journal).2.outward
  marks : (finish.go job).2.marks = job.marks
  artifacts : artifacts (finish.go job).2.task = artifacts job.task

/-- A computation of a job that writes its files. -/
def Flushes (out : Outside α) (folder : Folder)
    (artifacts : τ → Except Failure (List (String × Document))) (flush : Act (Job τ α) Unit)
    (job : Job τ α) : Prop :=
  flush.go job = ((((flushing artifacts job).act out folder).go job.journal).1,
    { job with journal := (((flushing artifacts job).act out folder).go job.journal).2 })

theorem go_lastFlush_of_failed {flush : Act (Job τ α) Unit} {job job' : Job τ α} {f : Failure}
    (h : flush.go job = (.error f, job')) (logger what : String) :
    ∃ logs, (lastFlush flush logger what).go job =
      (if job'.completed || job'.interrupted then .error f else .ok false,
        { job' with journal := { job'.journal with logs := logs } }) := by
  unfold lastFlush
  rw [Act.go_bind, Act.go_outcome, h]
  dsimp only
  rw [Act.go_bind, Act.go_state]
  dsimp only
  by_cases hmarked : (job'.completed || job'.interrupted) = true
  · rw [if_pos hmarked, if_pos hmarked]
    exact ⟨job'.journal.logs, rfl⟩
  · rw [if_neg hmarked, if_neg hmarked]
    exact ⟨_, rfl⟩

theorem Closes.of_go {finish : Act (Job τ α) Unit} {job job' : Job τ α} {r : Except Failure Unit}
    (hgo : finish.go job = (r, job'))
    (hresult : r = if job.completed || job.interrupted then
      (((flushing artifacts job).act out folder).go job.journal).1 else .ok ())
    (houtward : job'.journal.outward =
      (((flushing artifacts job).act out folder).go job.journal).2.outward)
    (hmarks : job'.marks = job.marks) (hartifacts : artifacts job'.task = artifacts job.task) :
    Closes out folder artifacts finish job := by
  constructor
  · rw [hgo, hresult]
  · rw [hgo, houtward]
  · rw [hgo, hmarks]
  · rw [hgo, hartifacts]

theorem exists_docs_of_flushed {job : Job τ α} {j : Journal α}
    (h : (((flushing artifacts job).act out folder).go j).1 = .ok ()) :
    ∃ docs, artifacts job.task = .ok docs := by
  unfold flushing at h
  cases hdocs : artifacts job.task with
  | ok docs => exact ⟨docs, rfl⟩
  | error f =>
    rw [hdocs] at h
    cases h

theorem Closes.of_flushes {flush rest track : Act (Job τ α) Unit} {job job₁ : Job τ α}
    (logger what : String) (htrack : track.go job = (.ok (), job₁)) (halike : Alike artifacts job job₁)
    (hflush : Flushes out folder artifacts flush job₁)
    (hrest : ∀ (docs : List (String × Document)) (job₂ : Job τ α), artifacts job₂.task = .ok docs →
      ∃ job₃, rest.go job₂ = (.ok (), job₃) ∧ Alike artifacts job₂ job₃) :
    Closes out folder artifacts
      (do track; if ← Job.lastFlush flush logger what then rest) job := by
  have hsame : flushing artifacts job₁ = flushing artifacts job := by
    unfold flushing
    rw [halike.artifacts]
  obtain ⟨hresult, houtward⟩ :=
    (flushing artifacts job).goesBy out folder job₁.journal job.journal halike.outward
  unfold Flushes at hflush
  rw [hsame] at hflush
  have hgo : Act.go (do track; if ← Job.lastFlush flush logger what then rest) job =
      Act.go (Job.lastFlush flush logger what >>= fun b => if b then rest else pure ()) job₁ := by
    rw [Act.go_bind, htrack]
  rcases hflushed : ((flushing artifacts job).act out folder).go job₁.journal with ⟨f | _, j⟩
  · -- A flush that fails counts if one of the marks is set, and nothing comes behind it.
    rw [hflushed] at hflush hresult houtward
    obtain ⟨logs, hlast⟩ := go_lastFlush_of_failed hflush logger what
    obtain ⟨hinterrupted, hcompleted⟩ := Prod.mk.inj halike.marks
    have hgo₃ : Act.go (do track; if ← Job.lastFlush flush logger what then rest) job =
        (if job.completed || job.interrupted then .error f else .ok (),
          { job₁ with journal := { j with logs := logs } }) := by
      rw [hgo, Act.go_bind, hlast, ← hinterrupted, ← hcompleted]
      dsimp only
      cases job₁.completed || job₁.interrupted <;> rfl
    exact .of_go hgo₃ (by rw [← hresult]) houtward halike.marks halike.artifacts
  · rw [hflushed] at hflush hresult houtward
    obtain ⟨docs, hdocs⟩ := exists_docs_of_flushed hresult.symm
    obtain ⟨job₃, hsummary, halike₃⟩ :=
      hrest docs { job₁ with journal := j } (halike.artifacts.trans hdocs)
    have hgo₃ : Act.go (do track; if ← Job.lastFlush flush logger what then rest) job =
        (.ok (), job₃) := by
      rw [hgo, Act.go_bind, go_lastFlush hflush]
      exact hsummary
    exact .of_go hgo₃ (by rw [← hresult, ite_self]) (halike₃.outward.trans houtward)
      (halike₃.marks.trans halike.marks) (halike₃.artifacts.trans halike.artifacts)

/-- One of the marks is set exactly when the work of a job has not failed. -/
theorem go_settled {start work : Act (Job τ α) Unit} {job worked : Job τ α} {r : Except Failure Unit}
    (hwork : Act.go (do start; work) job = (r, worked))
    (hfailed : ∀ f, r = .error f → worked.marks = (false, false)) :
    ∃ completed, Act.go (do start; work; settle) job = (r, { worked with completed := completed }) ∧
      (r = .ok () → (completed || worked.interrupted) = true) ∧
      ∀ f, r = .error f → completed = false ∧ worked.interrupted = false := by
  rw [← bind_assoc, Act.go_bind, hwork]
  cases r with
  | ok _ =>
    refine ⟨!worked.interrupted, rfl, fun _ => ?_, fun f h => by cases h⟩
    cases worked.interrupted <;> rfl
  | error f =>
    obtain ⟨hinterrupted, hcompleted⟩ := Prod.mk.inj (hfailed f rfl)
    refine ⟨false, ?_, fun h => (by cases h), fun g _ => ⟨rfl, hinterrupted⟩⟩
    rw [← hcompleted]

/-- How a run ends whose end makes one attempt. -/
theorem Closes.run {start work finish : Act (Job τ α) Unit} {job noticed : Job τ α}
    {r : Except Failure Unit} (hsettled : Act.go (do start; work; settle) job = (r, noticed))
    (hclose : Closes out folder artifacts finish noticed) :
    ∃ result last, (Job.run start work finish).go job = (result, last) ∧
      flushing artifacts last = flushing artifacts noticed ∧ last.marks = noticed.marks ∧
      last.journal.outward =
        (((flushing artifacts noticed).act out folder).go noticed.journal).2.outward ∧
      ∀ f, result = .error f ↔ (finish.go noticed).1 = .error f ∨
        (finish.go noticed).1 = .ok () ∧ r = .error f := by
  obtain ⟨hlast, hraises⟩ := Act.andFinally_cases finish hsettled
  refine ⟨_, (finish.go noticed).2, Prod.ext rfl hlast, ?_, hclose.marks, hclose.outward, hraises⟩
  exact congrArg Attempt.flush hclose.artifacts

/-- A failure in the work of a job is what its run raises, and its files are written all the same. -/
theorem run_of_failed {start work finish : Act (Job τ α) Unit} {job worked : Job τ α} {f : Failure}
    (hwork : Act.go (do start; work) job = (.error f, worked)) (hmarks : worked.marks = (false, false))
    (hclose : Closes out folder artifacts finish worked) :
    ∃ last, (run start work finish).go job = (.error f, last) ∧ last.journal.outward =
      (((flushing artifacts worked).act out folder).go worked.journal).2.outward := by
  have hsettled : Act.go (do start; work; settle) job = (.error f, worked) := by
    rw [← bind_assoc, Act.go_bind, hwork]
  obtain ⟨result, last, hrun, -, -, houtward, hraises⟩ := hclose.run hsettled
  obtain ⟨hinterrupted, hcompleted⟩ := Prod.mk.inj hmarks
  have hresult := hclose.result
  rw [hinterrupted, hcompleted] at hresult
  refine ⟨last, ?_, houtward⟩
  rw [hrun, (hraises f).2 (.inr ⟨hresult, rfl⟩)]

/-- How the first run of a job ends that makes the attempts `tries` in its work: `worked` is the job
after its work, `last` the job at its end, and the last attempt is to write its files. -/
structure Surfaced (out : Outside α) (folder : Folder) (names : List String)
    (artifacts : τ → Except Failure (List (String × Document)))
    (Whole : Except Failure (List (String × Document)) → Prop) (start work finish : Act (Job τ α) Unit)
    (job : Job τ α) (tries : List Attempt) (processed result : Except Failure Unit)
    (worked last : Job τ α) : Prop where
  works : Act.go (do start; work) job = (processed, worked)
  runs : (Job.run start work finish).go job = (result, last)
  /-- The work ends with the first attempt that fails, and others cannot tell anything but its
  attempts. -/
  processing : Ends job.journal (tries.map (Attempt.act out folder)) processed
  made : worked.journal.outward = (after job.journal (tries.map (Attempt.act out folder))).outward
  /-- Whether the work has failed or not, one more attempt is made, and nothing else. -/
  ended : last.journal.outward =
    (((flushing artifacts last).act out folder).go worked.journal).2.outward
  /-- The run raises the first failure of all attempts. -/
  raises : ∀ f, result = .error f ↔ ∃ i, FailsAt job.journal
    ((tries ++ [flushing artifacts last]).map (Attempt.act out folder)) i f
  asked : last.journal.queries = worked.journal.queries
  completed : ∀ f, processed = .error f → last.completed = false
  whole : ∀ docs, .flush docs ∈ tries ++ [flushing artifacts last] → Whole docs
  /-- The folder shows the files that were written last. -/
  shown : Unblocked folder.path names job.journal.disk →
    Shown folder.path names job.journal.disk
      (Attempt.lastFlushed out folder job.journal (tries ++ [flushing artifacts last])) last.journal.disk

/-- The first run of a job makes attempts and raises the first failure of them. -/
def Surfaces (out : Outside α) (folder : Folder) (names : List String)
    (artifacts : τ → Except Failure (List (String × Document)))
    (Whole : Except Failure (List (String × Document)) → Prop) (start work finish : Act (Job τ α) Unit)
    (job : Job τ α) : Prop :=
  ∃ tries processed result worked last,
    Surfaced out folder names artifacts Whole start work finish job tries processed result worked last

/-- A job surfaces its first failure when its work makes attempts until one of them fails and its end
makes one more. -/
theorem surfaces_of_tries {names : List String} {start work finish : Act (Job τ α) Unit}
    {job : Job τ α} {Inv : Job τ α → Prop}
    (htries : Tries out folder Whole Job.journal (fun job => Inv job ∧ job.interrupted = false)
      (do start; work) job fun _ job => Inv job)
    (hcompleted : ∀ job, Inv job → job.completed = false)
    (hlatest : ∀ job, Inv job → Whole (artifacts job.task))
    (hcloses : ∀ job completed, Inv job →
      Closes out folder artifacts finish { job with completed := completed })
    (hfamily : PlainFamily names) (hnames : ∀ docs, Whole (.ok docs) → docs.map (·.1) = names) :
    Surfaces out folder names artifacts Whole start work finish job := by
  obtain ⟨tries, hmade, hdone, hfailed⟩ := htries
  cases hwork : Act.go (do start; work) job with
  | mk processed worked =>
  rw [hwork] at hmade hdone hfailed
  rw [map_unit] at hmade
  have hinv : Inv worked := by
    cases processed with
    | ok _ => exact hdone () rfl
    | error f => exact (hfailed f rfl).1
  have hunmarked : ∀ f, processed = .error f → worked.marks = (false, false) := fun f hf =>
    Prod.ext (hfailed f hf).2 (hcompleted worked hinv)
  obtain ⟨completed, hsettled, hmarked, hneither⟩ := go_settled hwork hunmarked
  have hclose := hcloses worked completed hinv
  obtain ⟨result, last, hrun, hflushing, hmarks, hend, hraises⟩ := hclose.run hsettled
  change flushing artifacts last = flushing artifacts worked at hflushing
  have hwhole : ∀ docs, .flush docs ∈ tries ++ [flushing artifacts worked] → Whole docs := by
    intro docs hdocs
    rcases List.mem_append.1 hdocs with hdocs | hdocs
    · exact hmade.whole docs hdocs
    · obtain rfl := Attempt.flush.inj (List.mem_singleton.1 hdocs)
      exact hlatest worked hinv
  -- What the last attempt does depends on what others can tell alone.
  obtain ⟨hsame, hafter⟩ :=
    (flushing artifacts worked).goesBy out folder _ worked.journal hmade.outward.symm
  refine ⟨tries, processed, result, worked, last, hwork, hrun, hmade.ends, hmade.outward, ?_,
    fun f => ?_, ?_, fun f hf => ?_, ?_, fun hfree => ?_⟩
  · rw [hflushing]
    exact hend
  · have hresult := hclose.result
    rw [hflushing, List.map_append, List.map_singleton, hmade.ends.failsAt_concat_iff, hsame]
    refine (hraises f).trans ?_
    rw [hresult]
    cases processed with
    | ok _ =>
      rw [if_pos (hmarked rfl)]
      simp [flushing]
    | error g =>
      obtain ⟨rfl, hinterrupted⟩ := hneither g rfl
      simp [hinterrupted]
  · rw [← Attempt.queries_flush out folder (artifacts worked.task) worked.journal]
    exact congrArg Prod.fst hend
  · exact (congrArg Prod.snd hmarks).trans (hneither f hf).1
  · rwa [hflushing]
  · have hshown := Attempt.shown_lastFlushed out folder hfamily
      (fun docs hdocs => hnames docs (hwhole _ hdocs)) hfree
    rw [List.map_append, Act.after_append] at hshown
    have hdisk : _ = last.journal.disk := congrArg (·.2.1) (hafter.trans hend.symm)
    rw [hflushing, ← hdisk]
    exact hshown

end Job

end ProxyCensus
