import ProxyCensus.Settings.Basic
import ProxyCensus.Settings.Variables

/-!
# Reading the settings

The settings are read group by group. A group that no object sets is read from the variables alone,
and the first such group with a fault ends the reading. What is wrong with the groups that objects
set is collected into one report.
-/

namespace ProxyCensus

namespace Slot

def programName : Slot := ⟨"name", "APP_NAME"⟩
def logLevel : Slot := ⟨"log_level", "LOG_LEVEL"⟩
def logFile : Slot := ⟨"log_file", "LOG_FILE"⟩
def host : Slot := ⟨"host", "POSTGRES_HOST"⟩
def port : Slot := ⟨"port", "POSTGRES_PORT"⟩
def user : Slot := ⟨"user", "POSTGRES_USER"⟩
def password : Slot := ⟨"password", "POSTGRES_PASSWORD"⟩
def database : Slot := ⟨"database", "POSTGRES_DB"⟩
def batch : Slot := ⟨"batch_size", "BATCH_SIZE"⟩
def scanFolder : Slot := ⟨"proxy_result_folder", "PROXY_RESULT_FOLDER"⟩
def resolutionFolder : Slot := ⟨"multi_proxy_result_folder", "MULTI_PROXY_RESULT_FOLDER"⟩
def nodesFile : Slot := ⟨"config_file", "RPC_CONFIG_FILE"⟩
def timeout : Slot := ⟨"timeout", "RPC_TIMEOUT"⟩
def rounds : Slot := ⟨"max_retries", "RPC_MAX_RETRIES"⟩
def interval : Slot := ⟨"min_interval", "RPC_MIN_INTERVAL"⟩

end Slot

namespace Settings

open Checked (text optional positive nonNegative)

abbrev Source := Slot → Option (String × Json)

def field {α : Type} (source : Source) (s : Slot) (default : α) (read : Json → Checked α) :
    Checked α :=
  match source s with
  | some (key, v) => Checked.under (.field key) (read v)
  | none => .ok default

def General.read (source : Source) : Checked General :=
  let default : General := {}
  (Except.ok General.mk : Checked _)
    |> (Checked.ap · (field source .programName default.name text))
    |> (Checked.ap · (field source .logLevel default.logLevel text))
    |> (Checked.ap · (field source .logFile default.logFile (optional text)))

def given {α : Type} (read : Json → Checked α) (v : Json) : Checked (Option α) :=
  (read v).map some

def readCorpus (source : Source) : Checked Connection :=
  let default : Connection := {}
  (Except.ok Connection.mk : Checked _)
    |> (Checked.ap · (field source .host default.host (given text)))
    |> (Checked.ap · (field source .port default.port (given fun v => (positive v).map .ofNumber)))
    |> (Checked.ap · (field source .user default.user (given text)))
    |> (Checked.ap · (field source .password default.password text))
    |> (Checked.ap · (field source .database default.database (given text)))

def Pipeline.read (source : Source) : Checked Pipeline :=
  let default : Pipeline := {}
  (Except.ok Pipeline.mk : Checked _)
    |> (Checked.ap · (field source .batch default.batch positive))
    |> (Checked.ap · (field source .scanFolder default.scanFolder text))
    |> (Checked.ap · (field source .resolutionFolder default.resolutionFolder text))

def Nodes.read (source : Source) : Checked Nodes :=
  let default : Nodes := {}
  (Except.ok Nodes.mk : Checked _)
    |> (Checked.ap · (field source .nodesFile default.file text))
    |> (Checked.ap · (field source .timeout default.timeout positive))
    |> (Checked.ap · (field source .rounds default.rounds positive))
    |> (Checked.ap · (field source .interval default.interval nonNegative))

/-- A group of settings: the variable by which an object sets it, the title of the report when no
object does, its fields, and how they are read. -/
structure Group (α : Type) where
  name : String
  title : String
  slots : List Slot
  read : Source → Checked α

def generalGroup : Group General :=
  ⟨"app", "AppSettings", [.programName, .logLevel, .logFile], General.read⟩

def corpusGroup : Group Connection :=
  ⟨"corpus", "CorpusSettings", [.host, .port, .user, .password, .database], readCorpus⟩

def pipelineGroup : Group Pipeline :=
  ⟨"pipeline", "PipelineSettings", [.batch, .scanFolder, .resolutionFolder], Pipeline.read⟩

def nodesGroup : Group Nodes :=
  ⟨"rpc", "RpcSettings", [.nodesFile, .timeout, .rounds, .interval], Nodes.read⟩

namespace Group

variable {α : Type}

def object (g : Group α) (v : Variables) : Except Failure (Option Json) :=
  (v.objects g.name g.slots).map fun found => Variables.combine found.1 found.2

/-- Reads a group. Without an object its faults end the reading at once. -/
def load (g : Group α) (v : Variables) (object : Option Json) : Except Failure (Checked α) :=
  match object with
  | none =>
    match g.read (v.find? []) with
    | .ok a => .ok (.ok a)
    | .error issues => .error (.invalid ⟨g.title, issues⟩)
  | some (.obj fields) => .ok (Checked.under (.field g.name) (g.read (v.find? fields)))
  | some _ => .ok (Checked.under (.field g.name) (Checked.complain .notObject))

end Group

/-- Reads the settings. A variable that should hold an object and is no JSON is a fault of its own,
which comes before all others. -/
def ofVariables (v : Variables) : Except Failure Settings := do
  let generalObject ← generalGroup.object v
  let corpusObject ← corpusGroup.object v
  let pipelineObject ← pipelineGroup.object v
  let nodesObject ← nodesGroup.object v
  let general ← generalGroup.load v generalObject
  let corpus ← corpusGroup.load v corpusObject
  let pipeline ← pipelineGroup.load v pipelineObject
  let nodes ← nodesGroup.load v nodesObject
  let all := (Except.ok Settings.mk : Checked _)
    |> (Checked.ap · general)
    |> (Checked.ap · corpus)
    |> (Checked.ap · pipeline)
    |> (Checked.ap · nodes)
  all.mapError fun issues => .invalid ⟨"Settings", issues⟩

/-- Reads the settings from the environment and from the text of a file of variables. -/
def ofEnvironment (environment : List (String × String)) (file : Option String) :
    Except Failure Settings :=
  ofVariables ⟨environment, (file.map (VariableFile.read environment)).getD []⟩

end Settings

end ProxyCensus
