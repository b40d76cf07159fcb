import ProxyCensus.Journal
import ProxyCensus.Json.Document

/-!
# Snapshots

Documents kept as files in one folder. A single file is replaced at once. A family of files is first
written next to the files it replaces, all of it, and only then moved into place file by file, so a
document that cannot be written or a disk that refuses leaves the last snapshot as it was.
-/

namespace ProxyCensus.Snapshot

/-- The file next to another one in which its new text waits. -/
def staging (p : Path) : Path :=
  match p.getLast? with
  | some name => p.dropLast ++ [name ++ ".tmp"]
  | none => p

/-- Writes a text next to the file that it will replace; missing folders are made. -/
def stage (target : Path) (text : String) : Act Disk Unit := do
  Disk.makeFolder target.dropLast
  Disk.store (staging target) text

def write (folder : Path) (name : String) (d : Document) : Act Disk Unit := do
  let text ← Act.lift d.render
  let target := Target.inside folder name
  stage target.path text
  Disk.replace (staging target.path) target

/-- The texts of a family of documents; nothing is written when one of them has none. -/
def renderAll (folder : Path) : List (String × Document) → Except Failure (List (Target × String))
  | [] => .ok []
  | (name, d) :: rest => do
    return (Target.inside folder name, ← d.render) :: (← renderAll folder rest)

def unstage : List Target → Act Disk Unit
  | [] => pure ()
  | target :: rest => do
    Disk.remove (staging target.path)
    unstage rest

/-- Stages the texts one by one. When the disk refuses one, those staged before it are taken away. -/
def stageAll (staged : List Target) : List (Target × String) → Act Disk Unit
  | [] => pure ()
  | (target, text) :: rest => do
    match ← (stage target.path text).outcome with
    | .ok _ => stageAll (staged ++ [target]) rest
    | .error e => do
      if e.isSystem then unstage staged
      throw e

def commitAll : List (Target × String) → Act Disk Unit
  | [] => pure ()
  | (target, _) :: rest => do
    Disk.replace (staging target.path) target
    commitAll rest

def flush (folder : Path) (artifacts : List (String × Document)) : Act Disk Unit := do
  let texts ← Act.lift (renderAll folder artifacts)
  stageAll [] texts
  commitAll texts

/-- Documents under distinct names: a later document replaces an earlier one of the same name in
its place. -/
def distinct (artifacts : List (String × Document)) : List (String × Document) :=
  artifacts.foldl (fun known a => Ledger.updateEntries a.1 (fun _ => a.2) known) []

def report (artifacts : List (String × Document)) (folder : String) : LogRecord :=
  ⟨.debug, "Checkpoint Writer", s!"Flushed {artifacts.length} artifacts to {folder}"⟩

end ProxyCensus.Snapshot
