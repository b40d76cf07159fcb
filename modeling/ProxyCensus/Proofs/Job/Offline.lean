import ProxyCensus.Job.Resolve
import ProxyCensus.Proofs.Job.Marks

/-!
# What jobs do off the network

Most of what a job does is no business of the network: it asks the corpus, counts, writes messages and
files. Main statements: this leaves alone what has happened on the network, and how often the corpus was
closed; and so does a whole scan, which leaves alone what it was told to do as well.
-/

namespace ProxyCensus

open Act (Keeps)

variable {α β γ τ : Type}

/-- What only the network and the closing of the corpus change. -/
def Journal.online (j : Journal α) : α × List Post × Array (Event α) × Nat × Nat :=
  (j.clock, j.posts, j.trace, j.jitters, j.disposals)

namespace Corpus

open Journal (online)

theorem keeps_online_query (out : Outside α) (q : Query) : Keeps online (query out q) := by
  refine .bind .state fun j => .bind (fun _ => rfl) fun _ => ?_
  split
  · exact .throw _
  · exact fun _ => rfl
  · exact .pure _

theorem keeps_online_fetchCodes (out : Outside α) (address chain : Json) :
    Keeps online (fetchCodes out address chain) := by
  unfold fetchCodes
  split
  · exact .bind (.lift _) fun _ => .bind (keeps_online_query out _) fun _ => .pure _
  · exact .throw _

end Corpus

theorem Journal.keeps_online_flush (out : Outside α) (folder : Folder)
    (artifacts : List (String × Document)) : Keeps online (flush out folder artifacts) := by
  refine .bind .state fun j => .bind (fun _ => rfl) fun _ => ?_
  split
  · exact .bind (fun _ => rfl) fun _ => .throw _
  · refine .bind ?_ fun _ _ => rfl
    exact fun _ => rfl

namespace Tracked

def online (t : Tracked α) : α × List Post × Array (Event α) × Nat × Nat :=
  t.journal.online

theorem keeps_online_info (message : String) : Keeps online (info message : Act (Tracked α) Unit) :=
  .bind .state fun _ _ => rfl

theorem keeps_online_start (out : Outside α) (total : Option Int) : Keeps online (start out total) := by
  refine .bind (fun _ => rfl) fun _ => .bind (fun _ => rfl) fun _ => .bind .state fun _ => ?_
  split <;> exact keeps_online_info _

theorem keeps_online_track (count : Int) (skipped : Bool) :
    Keeps online (track count skipped : Act (Tracked α) Unit) := by
  refine .bind .state fun _ => .bind (fun _ => rfl) fun _ => .bind .state fun _ =>
    .bind (.lift _) fun m => ?_
  cases m with
  | some message => exact keeps_online_info message
  | none => exact .pure _

theorem keeps_online_finish (out : Outside α) : Keeps online (finish out : Act (Tracked α) Unit) := by
  refine .bind .state fun t => ?_
  dsimp only
  split
  · exact .pure _
  · refine .bind (fun _ => rfl) fun _ => .bind (.lift _) fun _ => .bind (keeps_online_info _) fun _ => ?_
    exact fun _ => rfl

end Tracked

namespace Job

/-- A part of a job that neither the question whether to stop changes nor anything that happens off the
network. -/
def Offline (part : Job τ α → γ) : Prop :=
  ∀ (job : Job τ α) (interrupted : Bool) (j : Journal α), j.online = job.journal.online →
    part { job with interrupted, journal := j } = part job

variable {part : Job τ α → γ}

theorem Offline.writing (h : Offline part) {x : Act (Journal α) β} (hx : Keeps Journal.online x) :
    Keeps part (Job.writing x) :=
  fun job => h job job.interrupted _ (hx job.journal)

theorem Offline.shouldStop (h : Offline part) (out : Outside α) : Keeps part (Job.shouldStop out) :=
  keeps_shouldStop (h.writing fun _ => rfl) fun job => h job true job.journal rfl

end Job

def Job.online (job : Job τ α) : α × List Post × Array (Event α) × Nat × Nat :=
  job.journal.online

theorem Job.offline_online : Job.Offline (Job.online : Job τ α → _) :=
  fun _ _ _ h => h

namespace Scan

open Job (online offline_online)

variable (out : Outside α)

theorem keeps_online_tracking {x : Act (Tracked α) β} (hx : Keeps Tracked.online x) :
    Keeps online (tracking x) :=
  fun job => hx ⟨job.task.progress, job.journal⟩

theorem keeps_online_log (level : Level) (message : String) :
    Keeps online (log level message : Act (Scan α) Unit) :=
  offline_online.writing fun _ => rfl

theorem keeps_online_flush : Keeps online (flush out) :=
  .bind .state fun _ => .bind (.lift _) fun _ => offline_online.writing (Journal.keeps_online_flush out _ _)

theorem keeps_online_classify (row : Row) : Keeps online (classify out row) :=
  .bind (.lift _) fun _ => .bind (offline_online.writing fun _ => rfl) fun _ => .bind .state fun _ =>
    .bind (.lift _) fun _ => .bind (offline_online.writing fun _ => rfl) fun _ => .bind (.lift _) fun _ =>
      .pure _

theorem keeps_online_scanRow (row : Row) : Keeps online (scanRow out row) := by
  refine .bind (keeps_online_classify out row).outcome fun r => ?_
  cases r with
  | ok found =>
    exact .bind (fun _ => rfl) fun _ => keeps_online_tracking (Tracked.keeps_online_track 1 false)
  | error f =>
    refine .bind ?_ fun _ => keeps_online_tracking (Tracked.keeps_online_track 1 true)
    unfold reportRow
    dsimp only
    split <;> exact keeps_online_log _ _

theorem keeps_online_countPage (page : List Row) :
    Keeps online (countPage page : Act (Scan α) Unit) := by
  unfold countPage
  split
  · exact .pure _
  · exact fun _ => rfl

theorem keeps_online_scanPages (batch : Nat) (hbatch : 0 < batch) (offset : Nat) :
    Keeps online (scanPages out batch hbatch offset) :=
  keeps_scanPages (fun q => offline_online.writing (Corpus.keeps_online_query out q))
    keeps_online_countPage (keeps_scanRows (offline_online.shouldStop out) (keeps_online_scanRow out))
    (keeps_online_flush out) batch hbatch offset

theorem keeps_online_finish : Keeps online (finish out) :=
  keeps_finish out (keeps_online_tracking (Tracked.keeps_online_finish out)) (keeps_online_flush out)
    keeps_online_log

/-- A whole scan is off the network, whatever comes in its way. -/
theorem keeps_online_run : Keeps online (run out) := by
  have hbegin : Keeps online (begin out) :=
    .bind .state fun _ => .bind (keeps_online_log _ _) fun _ =>
      keeps_online_tracking (Tracked.keeps_online_start out none)
  have hwork : Keeps online (do begin out; work out; Job.settle : Act (Scan α) Unit) :=
    hbegin.bind fun _ => .bind (.bind .state fun _ => keeps_online_scanPages out _ _ _) fun _ _ => rfl
  exact hwork.andFinally (keeps_online_finish out)

/-- By which patterns a scan searches, and where its files go. -/
def terms (job : Scan α) : List Definition × Folder :=
  (job.task.catalog, job.task.folder)

theorem keeps_terms_run : Keeps terms (run out) := by
  have haside : Aside (terms : Scan α → _) := fun _ _ _ _ => rfl
  have hupheld : Upheld out (terms : Scan α → _) := {
    unwritten := haside.unwritten
    shouldStop := Job.shouldStop_keeps (fun _ _ _ => rfl) out
    countPage := fun page => by
      unfold countPage
      split
      · exact .pure _
      · exact fun _ => rfl
    scanRow := scanRow_keeps out haside }
  have hwork : Keeps terms (do begin out; work out; Job.settle : Act (Scan α) Unit) :=
    (begin_keeps out haside).bind fun _ => hupheld.work.bind fun _ _ => rfl
  exact hwork.andFinally (finish_keeps out haside)

end Scan

namespace Resolve

/-- A part of a resolution that nothing changes that happens off the network, but for what is counted. -/
def Offstage (part : Resolve α → γ) : Prop :=
  ∀ (job : Resolve α) (interrupted : Bool) (progress : Progress) (j : Journal α),
    j.online = job.journal.online →
      part { job with interrupted, task := { job.task with progress }, journal := j } = part job

namespace Offstage

variable {part : Resolve α → γ} (h : Offstage part) (out : Outside α)

include h

theorem offline : Job.Offline part :=
  fun job interrupted j hj => h job interrupted job.task.progress j hj

theorem tracking {x : Act (Tracked α) β} (hx : Keeps Tracked.online x) :
    Keeps part (Resolve.tracking x) :=
  fun job => h job job.interrupted _ _ (hx ⟨job.task.progress, job.journal⟩)

theorem log (level : Level) (message : String) : Keeps part (Resolve.log level message) :=
  h.offline.writing fun _ => rfl

theorem skip (count : Int) : Keeps part (Resolve.skip count) :=
  h.tracking (Tracked.keeps_online_track count true)

theorem skipWith (level : Level) (message : String) : Keeps part (Resolve.skipWith level message) :=
  .bind (h.log level message) fun _ => h.skip 1

theorem skipUnsearched (chain address : String) (f : Failure) :
    Keeps part (Resolve.skipUnsearched chain address f) := by
  unfold Resolve.skipUnsearched
  split <;> exact h.skipWith _ _

theorem begin : Keeps part (Resolve.begin out) :=
  .bind .state fun _ => .bind (.lift _) fun _ => .bind (h.log _ _) fun _ =>
    h.tracking (Tracked.keeps_online_start out _)

theorem flush : Keeps part (Resolve.flush out) :=
  .bind .state fun _ => h.offline.writing (Journal.keeps_online_flush out _ _)

theorem finish : Keeps part (Resolve.finish out) :=
  keeps_finish (h.tracking (Tracked.keeps_online_finish out)) (h.flush out) h.log

end Offstage

end Resolve

end ProxyCensus
