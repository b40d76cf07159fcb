import ProxyCensus.Proofs.Job.ResolveAttempts
import ProxyCensus.Proofs.Job.ScanAttempts

/-!
# The files of a run that returns

A run returns only if all of its phases do, and with a mark set only if its last flush does. Main
statement: when the run of a scan or of a resolution returns, whether it was interrupted or not, its
folder holds the files of what it has counted in the end, and none of their texts is left waiting.
-/

namespace ProxyCensus

open Act (Keeps)
open Snapshot (Holds PlainFamily)

variable {τ α : Type} {out : Outside α}

/-- A flush that returns leaves its documents in the folder, wherever the way there leads. -/
theorem Journal.holds_of_flush {folder : Folder} {docs : List (String × Document)}
    (hfamily : PlainFamily (docs.map (·.1))) {j j' : Journal α}
    (h : (Journal.flush out folder docs).go j = (.ok (), j')) :
    Holds j'.disk folder.path.collapse docs := by
  have hcases := Journal.flush_cases out folder hfamily j
  rw [h] at hcases
  rcases hcases with ⟨f, -, hfailed, -⟩ | ⟨items, steps, hitems, hcourse, hsteps⟩
  · cases hfailed
  · have hended := hcourse.ended (hitems.names ▸ hfamily)
    rw [← hsteps] at hended
    cases hended with
    | done hmoved hswept =>
      have hmoved := hmoved.moved
      rw [List.take_length] at hmoved
      constructor
      · intro doc hdoc
        obtain ⟨item, hitem, hname, hrender⟩ := hitems.exists_item hdoc
        exact ⟨item.2, hrender, hname ▸ hmoved item hitem⟩
      · intro doc hdoc
        obtain ⟨item, hitem, hname, -⟩ := hitems.exists_item hdoc
        exact hname ▸ hswept item hitem

namespace Job

/-- A run returns when each of its phases does, and one of the marks is set before its end. -/
theorem run_eq_ok {start work finish : Act (Job τ α) Unit} {job last : Job τ α}
    (h : (run start work finish).go job = (.ok (), last)) :
    ∃ begun worked, start.go job = (.ok (), begun) ∧ work.go begun = (.ok (), worked) ∧
      finish.go { worked with completed := !worked.interrupted } = (.ok (), last) := by
  obtain ⟨settled, hbefore, hfinish⟩ := Act.go_andFinally_eq_ok h
  obtain ⟨_, begun, hstart, hrest⟩ := Act.go_bind_eq_ok hbefore
  obtain ⟨_, worked, hwork, hsettle⟩ := Act.go_bind_eq_ok hrest
  obtain rfl := (Prod.mk.inj hsettle).2
  exact ⟨begun, worked, hstart, hwork, hfinish⟩

/-- A last flush with a mark set returns only if the flush does. -/
theorem lastFlush_eq_ok {flush : Act (Job τ α) Unit} {logger what : String} {job job' : Job τ α}
    {flushed : Bool} (hkeeps : Keeps marks flush) (hmarked : (job.completed || job.interrupted) = true)
    (h : (lastFlush flush logger what).go job = (.ok flushed, job')) :
    flushed = true ∧ flush.go job = (.ok (), job') := by
  rcases hflush : flush.go job with ⟨r, job₁⟩
  cases r with
  | ok _ =>
    rw [go_lastFlush hflush] at h
    obtain ⟨hflushed, rfl⟩ := Prod.mk.inj h
    exact ⟨(Except.ok.inj hflushed).symm, rfl⟩
  | error f =>
    obtain ⟨logs, hgo⟩ := go_lastFlush_of_failed hflush logger what
    obtain ⟨hinterrupted, hcompleted⟩ := Prod.mk.inj (hkeeps.of_go hflush)
    rw [hinterrupted, hcompleted, if_pos hmarked] at hgo
    rw [hgo] at h
    cases h

variable {folder : τ → Folder} {artifacts : τ → Except Failure (List (String × Document))}

/-- The folder of a job holds the files of what the job has counted, and no text waits there. -/
def Stored (folder : τ → Folder) (artifacts : τ → Except Failure (List (String × Document)))
    (job : Job τ α) : Prop :=
  ∃ docs, artifacts job.task = .ok docs ∧ Holds job.journal.disk (folder job.task).path.collapse docs

theorem Flushes.stored {flush : Act (Job τ α) Unit} {job job' : Job τ α}
    (hfamily : ∀ docs, artifacts job.task = .ok docs → PlainFamily (docs.map (·.1)))
    (h : Flushes out (folder job.task) artifacts flush job) (hgo : flush.go job = (.ok (), job')) :
    Stored folder artifacts job' := by
  rw [h] at hgo
  obtain ⟨hflushed, rfl⟩ := Prod.mk.inj hgo
  unfold flushing Attempt.act at hflushed ⊢
  rcases hdocs : artifacts job.task with f | docs
  · simp [hdocs, Act.go_bind] at hflushed
  · refine ⟨docs, hdocs, Journal.holds_of_flush (hfamily docs hdocs) (Prod.ext ?_ rfl)⟩
    rw [hdocs] at hflushed
    exact hflushed

/-- When a run returns whose end is a flush and messages, its files are stored. -/
theorem stored_of_run {start work track flush rest : Act (Job τ α) Unit} {logger what : String}
    {job last : Job τ α} (htrack : Keeps marks track)
    (hflush : ∀ job, Flushes out (folder job.task) artifacts flush job)
    (hfamily : ∀ task docs, artifacts task = .ok docs → PlainFamily (docs.map (·.1)))
    (hrest : Keeps (fun job => (job.task, job.journal.disk)) rest)
    (h : (run start work (do track; if ← lastFlush flush logger what then rest)).go job =
      (.ok (), last)) : Stored folder artifacts last := by
  obtain ⟨begun, worked, -, -, hfinish⟩ := run_eq_ok h
  obtain ⟨_, tracked, htracked, hend⟩ := Act.go_bind_eq_ok hfinish
  obtain ⟨flushed, job₁, hlast, hend⟩ := Act.go_bind_eq_ok hend
  have hmarked : (tracked.completed || tracked.interrupted) = true := by
    obtain ⟨hinterrupted, hcompleted⟩ := Prod.mk.inj (htrack.of_go htracked)
    rw [hinterrupted, hcompleted]
    cases worked.interrupted <;> rfl
  have hkeeps : Keeps marks flush := fun job => by
    rw [hflush job]
    rfl
  obtain ⟨rfl, hflushed⟩ := lastFlush_eq_ok hkeeps hmarked hlast
  obtain ⟨docs, hdocs, hholds⟩ := (hflush tracked).stored (hfamily tracked.task) hflushed
  obtain ⟨htask, hdisk⟩ := Prod.mk.inj (hrest.of_go hend)
  exact ⟨docs, htask ▸ hdocs, htask ▸ hdisk ▸ hholds⟩

end Job

/-- When a scan returns, interrupted or not, its files are those of its final tally. -/
theorem Scan.stored_of_run {start last : Scan α} (h : (Scan.run out).go start = (.ok (), last)) :
    Job.Stored ScanTask.folder Scan.artifacts last := by
  refine Job.stored_of_run (aside_marks.keeps_tracking _) go_flush ?_ ?_ h
  · intro task docs hdocs
    obtain ⟨stats, -, hdocs⟩ := bind_eq_ok_iff.1 hdocs
    obtain rfl := Except.ok.inj hdocs
    rw [ScanTally.names_documents]
    exact plainFamily_fileNames
  · exact Scan.keeps_ending fun _ _ _ => rfl

/-- When a resolution returns, interrupted or not, its files are those of its final tally. -/
theorem Resolve.stored_of_run [Seconds α] {start last : Resolve α}
    (h : (Resolve.run out).go start = (.ok (), last)) :
    Job.Stored ResolveTask.folder Resolve.artifacts last := by
  refine Job.stored_of_run (fun _ => rfl) go_flush ?_ ?_ h
  · intro task docs hdocs
    obtain rfl := Except.ok.inj hdocs
    rw [ResolutionTally.names_artifacts]
    exact plainFamily_fileNames
  · exact Resolve.keeps_ending fun _ _ _ => rfl

end ProxyCensus
