import ProxyCensus.Command.World
import ProxyCensus.Settings.Reading
import Std.Time.Format

/-!
# The program

Reads the environment, the settings and the files, runs the command, and carries out what it did to
the disk. There is no connection to a database: every question to the corpus fails.
-/

namespace ProxyCensus.Main

def nameOf (p : Path) : String :=
  "/" ++ "/".intercalate p

def textOf? (name : String) : IO (Option String) := do
  match ← (IO.FS.readBinFile name).toBaseIO with
  | .ok bytes => return some ((String.fromUTF8? bytes).getD "")
  | .error _ => return none

def nodeAt (p : Path) : IO (Option Node) := do
  match ← (IO.FS.readBinFile (nameOf p)).toBaseIO with
  | .ok bytes => return some (.file ((String.fromUTF8? bytes).getD ""))
  | .error (.noFileOrDirectory ..) => return none
  | .error _ => return some .folder

def diskAt (home : Path) (places : List Path) : IO Disk := do
  let mut d : Disk := { home }
  for p in Command.wayTo home ++ places do
    if let some node ← nodeAt p then d := d.set p node
  return d

def apply : Disk.Change → IO Unit
  | .makeFolder p => IO.FS.createDirAll (nameOf p)
  | .store p text => IO.FS.writeFile (nameOf p) text
  | .remove p => IO.FS.removeFile (nameOf p)

def outside : Outside Float where
  reply _ _ := ⟨0, .fault (.network (.connection "no network"))⟩
  jitter _ := 0.5
  stopwatch _ := .whole 0
  date _ := 0
  stop _ := false
  disturbance _ := some (.fault (.database "no connection to the corpus"))
  rows := []
  codes _ _ := []
  flushFault _ := none

def perform (s : Settings) (args : List String) : IO UInt32 := do
  let home := Path.ofText (← IO.currentDir).toString
  let before ← diskAt home (Command.places { home } s args)
  let time := (← Std.Time.PlainDateTime.now).format "uuuu-MM-dd HH:mm:ss"
  let (r, j) := (Command.runArguments outside s time args).go { clock := 0, disk := before }
  (before.changes j.disk).forM apply
  match r with
  | .error f => IO.eprintln f.describe; return 1
  | .ok e =>
    e.logs.forM fun l => IO.print (Logging.lineOf time l)
    if let some n := e.notice then IO.println n.text
    if e.warned then IO.eprintln "Warning: Could not set up file logging"
    match e.status with
    | .misused m => IO.eprintln s!"Error: {m.message}"
    | .broken f => IO.eprintln f.describe
    | _ => pure ()
    return e.status.code.toUInt32

end ProxyCensus.Main

open ProxyCensus in
def main (args : List String) : IO UInt32 := do
  let environment := environmentOfText ((← Main.textOf? "/proc/self/environ").getD "")
  match Settings.ofEnvironment environment (← Main.textOf? ".env") with
  | .ok s => Main.perform s args
  | .error f => IO.eprintln f.describe; return 1
