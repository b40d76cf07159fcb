import ProxyCensus.Act
import ProxyCensus.Checkpoint.Path
import ProxyCensus.Tally.Ledger

/-!
# Disk

Files and folders under a root folder, and the few operations on them that keep snapshots. A path is
walked from the root on; what it meets on the way decides how an operation fails. A path that is too
long fails before anything is done, and one with a null character even before that.
-/

namespace ProxyCensus

/-- What stands at a path. -/
inductive Node where
  | folder
  | file (text : String)
  deriving DecidableEq

inductive Shortage where
  /-- Nothing may be written. -/
  | denied
  /-- Only so many characters fit. -/
  | full (room : Nat)

/-- The files and folders under the root. -/
structure Disk where
  nodes : List (Path × Node) := []
  /-- The folder from which names start that do not start at the root. -/
  home : Path := []
  /-- What the disk refuses when a text is stored at a place. -/
  shortage : Path → Option Shortage := fun _ => none
  /-- Whether the disk refuses to take a file away from a place. -/
  held : Path → Bool := fun _ => false

namespace Disk

/-- What stands at a path; the root is always a folder. -/
def get? (d : Disk) (p : Path) : Option Node :=
  if p.isEmpty then some .folder else (d.nodes.find? (·.1 == p)).map (·.2)

/-- Puts a node at a path, in place of what was there. -/
def set (d : Disk) (p : Path) (n : Node) : Disk :=
  { d with nodes := Ledger.updateEntries p (fun _ => n) d.nodes }

/-- Takes away what stands at a path. -/
def erase (d : Disk) (p : Path) : Disk :=
  { d with nodes := d.nodes.filter (·.1 != p) }

def isFolder (d : Disk) (p : Path) : Bool :=
  d.get? p == some .folder

def isFile (d : Disk) (p : Path) : Bool :=
  match d.get? p with
  | some (.file _) => true
  | _ => false

/-- The longest name of a file or folder, in bytes. -/
def nameLimit : Nat := 255

def tooLong (name : String) : Bool :=
  nameLimit < name.utf8ByteSize

/-- The longest text of a path, in bytes. -/
def pathLimit : Nat := 4095

/-- Refuses a path with a null character, and one whose text has too many bytes. -/
def check (p : Path) (size : Nat) : Except Failure Unit :=
  if p.hasNull then .error (.badValue "embedded null byte")
  else if pathLimit < size then .error (.disk .nameTooLong)
  else .ok ()

/-- Walks the names from a folder on. All but the last lead through folders that have to be there.
The result is the place itself. -/
def walk (d : Disk) (here : Path) : Path → Except Failure Path
  | [] => .ok here
  | [name] => if tooLong name then .error (.disk .nameTooLong) else .ok (here.enter name)
  | name :: rest =>
    if tooLong name then .error (.disk .nameTooLong)
    else match d.get? (here.enter name) with
      | some .folder => walk d (here.enter name) rest
      | some (.file _) => .error (.disk .notFolder)
      | none => .error (.disk .notFound)

def walkInto (d : Disk) (p : Path) : Except Failure Path := do
  let place ← d.walk [] p
  match d.get? place with
  | some .folder => .ok place
  | some (.file _) => .error (.disk .notFolder)
  | none => .error (.disk .notFound)

/-- Makes a folder and the folders above it, as far as they are missing. Once one had to be made,
each of those that follow is made by itself, and a file in the place of one of them is what was to be
made; before that, a file on the way is no folder to go through. -/
def makeFrom (made : Bool) (here : Path) : Path → Act Disk Unit
  | [] => pure ()
  | name :: rest => do
    if tooLong name then throw (.disk .nameTooLong)
    let next := here.enter name
    match (← Act.state).get? next with
    | some .folder => makeFrom made next rest
    | some (.file _) => throw (.disk (if made || rest.isEmpty then .exists else .notFolder))
    | none => do
      Act.change (·.set next .folder)
      makeFrom true next rest

def makeFolder (p : Path) : Act Disk Unit := do
  Act.lift (check p p.size)
  makeFrom false [] p

/-- Writes a file whose folder is there. When the disk is full, the start of the text stays. -/
def store (p : Path) (text : String) : Act Disk Unit := do
  Act.lift (check p p.size)
  let d ← Act.state
  let place ← Act.lift (d.walk [] p)
  if d.isFolder place then throw (.disk .isFolder)
  match d.shortage place with
  | none => Act.change (·.set place (.file text))
  | some .denied => throw (.disk .denied)
  | some (.full room) =>
    Act.change (·.set place (.file (String.ofList (text.toList.take room))))
    if room < text.length then throw (.disk .full)

/-- Adds a text at the end of a file whose folder is there; a missing file is made. -/
def append (p : Path) (text : String) : Act Disk Unit := do
  Act.lift (check p p.size)
  let d ← Act.state
  let place ← Act.lift (d.walk [] p)
  match d.get? place with
  | some .folder => throw (.disk .isFolder)
  | some (.file earlier) => Act.change (·.set place (.file (earlier ++ text)))
  | none => Act.change (·.set place (.file text))

def load (d : Disk) (p : Path) : Except Failure String := do
  check p p.size
  let place ← d.walk [] p
  match d.get? place with
  | some (.file text) => .ok text
  | some .folder => .error (.disk .isFolder)
  | none => .error (.disk .notFound)

/-- Takes a file away; a file that is not there is no failure. -/
def remove (p : Path) : Act Disk Unit := do
  let d ← Act.state
  match d.walk [] p with
  | .ok place =>
    if d.isFile place then
      if d.held place then throw (.disk .denied)
      Act.change (·.erase place)
  | .error _ => pure ()

/-- Moves a file into the place of another, which is replaced at once. A target that ends in points
is in use, and one that ends in a slash is no place for a file. -/
def replace (source : Path) (target : Target) : Act Disk Unit := do
  Act.lift (check target.path target.size)
  let d ← Act.state
  let source ← Act.lift (d.walk [] source)
  match target.ending with
  | .here => do
    discard (Act.lift (d.walkInto target.path))
    throw (.disk .busy)
  | .above => do
    discard (Act.lift (d.walkInto target.path.dropLast))
    throw (.disk .busy)
  | ending => do
    let place ← Act.lift (d.walk [] target.path)
    match d.get? source with
    | none => throw (.disk .notFound)
    | some .folder => throw (.disk .isFolder)
    | some (.file text) =>
      if ending = .slash then throw (.disk .notFolder)
      if d.isFolder place then throw (.disk .isFolder)
      if d.held source then throw (.disk .denied)
      Act.change fun d => (d.erase source).set place (.file text)

def place (d : Disk) (s : String) : Path :=
  if s.startsWith "/" then Path.ofText s else d.home ++ Path.ofText s

/-- Whether a text names a file. A name that ends like a folder names none. -/
def hasFile (d : Disk) (s : String) : Bool :=
  match check (d.place s) (d.place s).size, d.walk [] (d.place s), (Path.parts s).getLast? with
  | .ok _, .ok place, some name => d.isFile place && name != "" && name != "."
  | _, _, _ => false

end Disk

end ProxyCensus
