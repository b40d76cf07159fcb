import ProxyCensus.Journal

/-!
# Jobs

A job starts, works and ends; the end always comes, also after a failure. A job that was asked to
stop is interrupted and stays so, and is not asked again. It is complete when its work returned and
it was not interrupted.
-/

namespace ProxyCensus

structure Job (τ α : Type) where
  interrupted : Bool := false
  completed : Bool := false
  task : τ
  journal : Journal α

namespace Job

variable {τ α : Type}

def writing {β : Type} (x : Act (Journal α) β) : Act (Job τ α) β :=
  Act.on Job.journal (fun job j => { job with journal := j }) x

def adjust (f : τ → τ) : Act (Job τ α) Unit :=
  Act.change fun job => { job with task := f job.task }

/-- Whether the job is to stop. Once it is, it is not asked again. -/
def shouldStop (out : Outside α) : Act (Job τ α) Bool := do
  if (← Act.state).interrupted then return true
  let stop ← writing (Journal.askStop out)
  if stop then Act.change ({ · with interrupted := true })
  return stop

/-- Marks the job as complete unless it was interrupted. -/
def settle : Act (Job τ α) Unit :=
  Act.change fun job => { job with completed := !job.interrupted }

def run (start work finish : Act (Job τ α) Unit) : Act (Job τ α) Unit :=
  Act.andFinally (do start; work; settle) finish

end Job

structure Folder where
  path : Path
  label : String

def Folder.ofText (d : Disk) (s : String) : Folder :=
  ⟨d.place s, s⟩

end ProxyCensus
