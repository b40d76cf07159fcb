import ProxyCensus.Journal

/-!
# Logging

Which messages are written, how they read, and where they go. Levels are numbers; every message of
at least the level of its logger is written. Loggers are named in parts with points between them, and
a logger has the level of the nearest one above it that was given a level of its own.
-/

namespace ProxyCensus

/-- How messages are written. -/
structure Logging where
  /-- The least level that is written. -/
  threshold : Int
  /-- The file to which messages go as well. -/
  file : Option Path := none
  /-- Whether a file was asked for that could not be opened. -/
  refused : Bool := false

namespace Logging

def levelNames : List (String × Int) :=
  [("CRITICAL", 50), ("FATAL", 50), ("ERROR", 40), ("WARN", 30), ("WARNING", 30), ("INFO", 20),
    ("DEBUG", 10), ("NOTSET", 0)]

def upperChar (c : Char) : Char :=
  match c with
  | 'ı' => 'I'
  | 'ſ' => 'S'
  | c => c.toUpper

/-- The level that a text names in any case, with blanks around it; another text means that of
plain information. -/
def levelOfText (s : String) : Int :=
  let name := String.ofList ((Text.trimBy Text.isBlank s.toList).map upperChar)
  ((levelNames.find? (·.1 == name)).map (·.2)).getD Level.info.value

def levelOf : Json → Except Failure Int
  | .int n => .ok n
  | .bool b => .ok (if b then 1 else 0)
  | .str s => .ok (levelOfText s)
  | _ => .error .noOperation

/-- The loggers of libraries that say too much. They are given a level of their own. -/
def noisy : List String :=
  ["aiohttp.access", "sqlalchemy.engine", "sqlalchemy.pool", "urllib3"]

def quiet : List String :=
  ["sqlalchemy"]

def quietLevel : Int := Level.warning.value

def isUnder (name top : String) : Bool :=
  name == top || (top ++ ".").toList.isPrefixOf name.toList

/-- The level of a logger. -/
def levelFor (l : Logging) (name : String) : Int :=
  if (noisy ++ quiet).any (isUnder name) then quietLevel else l.threshold

def accepts (l : Logging) (name : String) (level : Int) : Bool :=
  0 < level && l.levelFor name ≤ level

def levelName (level : Int) : String :=
  match [Level.debug, .info, .warning, .error, .critical].find? (·.value == level) with
  | some known => known.name
  | none => s!"Level {level}"

/-- How a message reads. The logger above all others has no name of its own. -/
def line (time name : String) (level : Int) (text : String) : String :=
  let name := if name.isEmpty then "root" else name
  s!"{time} - {name} - [{levelName level}] - {text}\n"

/-- Sets the level and opens the file, to which messages are added. Without the file, messages are
written all the same. -/
def configure (file : Option String) (threshold : Int) : Act Disk Logging := do
  match file with
  | none | some "" => return { threshold }
  | some name =>
    let path := ((← Act.state).place name).collapse
    match ← (Disk.append path "").outcome with
    | .ok _ => return { threshold, file := some path }
    | .error f => if f.isSystem then return { threshold, refused := true } else throw f

def store (l : Logging) (text : String) : Act Disk Unit :=
  match l.file with
  | some path => Disk.append path text
  | none => pure ()

/-- The messages that are written. -/
def keep (l : Logging) (logs : Array LogRecord) : Array LogRecord :=
  logs.filter fun r => l.accepts r.logger r.level.value

def lineOf (time : String) (r : LogRecord) : String :=
  line time r.logger r.level.value r.message

end Logging

end ProxyCensus
