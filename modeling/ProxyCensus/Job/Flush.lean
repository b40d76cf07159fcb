import ProxyCensus.Checkpoint.Snapshot
import ProxyCensus.Job.Lifecycle

/-!
# Flushing results

Results are flushed as one family of files. The outside may refuse a flush before anything is
written.
-/

namespace ProxyCensus

variable {τ α : Type}

def Journal.onDisk {β : Type} (x : Act Disk β) : Act (Journal α) β :=
  Act.on Journal.disk (fun j d => { j with disk := d }) x

def Journal.flush (out : Outside α) (folder : Folder) (artifacts : List (String × Document)) :
    Act (Journal α) Unit := do
  let n := (← Act.state).flushCalls
  Act.change fun j => { j with flushCalls := n + 1 }
  match out.flushFault n with
  | some f =>
    Act.change fun j => { j with flushes := j.flushes.push none }
    throw f
  | none =>
    Journal.onDisk (Snapshot.flush folder.path artifacts)
    Act.change fun j => { j with
      flushed := j.flushed + 1
      logs := j.logs.push (Snapshot.report artifacts folder.label)
      flushes := j.flushes.push (some j.disk) }

/-- The last flush of a job. When the work has failed already, a failure of this flush is only
reported, and the result is false. -/
def Job.lastFlush (flush : Act (Job τ α) Unit) (logger what : String) : Act (Job τ α) Bool := do
  match ← flush.outcome with
  | .ok _ => return true
  | .error f =>
    let job ← Act.state
    if job.completed || job.interrupted then throw f
    Job.writing (Journal.log .error logger s!"Final flush of the {what} failed")
    return false

end ProxyCensus
