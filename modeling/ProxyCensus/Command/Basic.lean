import ProxyCensus.Checkpoint.Disk
import ProxyCensus.Command.Arguments
import ProxyCensus.Settings.Basic
import ProxyCensus.Text.Integer

/-!
# Commands

The program scans the corpus or resolves the candidates of a scan. What the arguments leave open
comes from the settings.
-/

namespace ProxyCensus

structure ScanOptions where
  batch : Int
  folder : String
  logLevel : String
  logFile : Option String

structure ResolveOptions where
  candidates : String
  nodes : String
  folder : String
  timeout : Int
  rounds : Int
  interval : Float
  logLevel : String
  logFile : Option String

inductive Command where
  /-- Tell about itself. -/
  | notice (n : Command.Notice)
  | scan (options : ScanOptions)
  | resolve (options : ResolveOptions)

inductive Status where
  | completed
  | interrupted
  /-- The run failed. -/
  | failed
  | misused (m : Command.Misuse)
  /-- Something failed before the run. -/
  | broken (f : Failure)

def Status.code : Status → Nat
  | .completed => 0
  | .interrupted => 130
  | .failed | .broken _ => 1
  | .misused _ => 2

namespace Command

/-! ## Options -/

def batchSize : OptionName := ⟨"batch-size", some 'b'⟩
def outputDir : OptionName := ⟨"output-dir", some 'o'⟩
def candidatesFile : OptionName := ⟨"candidates-file", some 'i'⟩
def rpcConfigFile : OptionName := ⟨"rpc-config-file", some 'r'⟩
def rpcTimeout : OptionName := ⟨"rpc-timeout", none⟩
def rpcMaxRetries : OptionName := ⟨"rpc-max-retries", none⟩
def rpcMinInterval : OptionName := ⟨"rpc-min-interval", none⟩
def logLevel : OptionName := ⟨"log-level", none⟩
def logFile : OptionName := ⟨"log-file", none⟩

def scanNames : List OptionName :=
  [batchSize, outputDir, logLevel, logFile]

def resolveNames : List OptionName :=
  [candidatesFile, rpcConfigFile, outputDir, rpcTimeout, rpcMaxRetries, rpcMinInterval, logLevel,
    logFile]

/-! ## Values -/

def integer (g : Given) (name : OptionName) (default : Int) : Except Status Int :=
  match g.value? name with
  | none => .ok default
  | some text =>
    match Text.int? text with
    | some n => .ok n
    | none => .error (.misused (.badInteger name.text text))

def number (g : Given) (name : OptionName) (default : Float) : Except Status Float :=
  match g.value? name with
  | none => .ok default
  | some text =>
    match Decimal.ofText? text with
    | some x => .ok x
    | none => .error (.misused (.badNumber name.text text))

def file (d : Disk) (g : Given) (name : OptionName) (default : String) : Except Status String :=
  let text := (g.value? name).getD default
  if text.toList.contains '\x00' then .error (.broken (.badValue "embedded null byte"))
  else if d.hasFile text then .ok text
  else .error (.misused (.noFile name.text text))

def text (g : Given) (name : OptionName) (default : String) : String :=
  (g.value? name).getD default

/-- The first argument that belongs to no option is one too many. -/
def checkExtra (g : Given) : Except Status Unit :=
  match g.extra with
  | [] => .ok ()
  | a :: _ => .error (.misused (.unwantedArgument a))

def readScan (s : Settings) (g : Given) : Except Status Command := do
  let batch ← integer g batchSize s.pipeline.batch
  checkExtra g
  return .scan {
    batch
    folder := text g outputDir s.pipeline.scanFolder
    logLevel := text g logLevel s.general.logLevel
    logFile := (g.value? logFile).or s.general.logFile }

def candidatesOf (folder : String) : String :=
  if folder.isEmpty || folder.endsWith "/" then folder ++ "multi-proxy-contracts.json"
  else folder ++ "/multi-proxy-contracts.json"

def checkResolve (s : Settings) (d : Disk) (g : Given) (name : OptionName) : Except Status Unit := do
  if name = candidatesFile then discard (file d g name (candidatesOf s.pipeline.scanFolder))
  else if name = rpcConfigFile then discard (file d g name s.nodes.file)
  else if name = rpcTimeout then discard (integer g name s.nodes.timeout)
  else if name = rpcMaxRetries then discard (integer g name s.nodes.rounds)
  else if name = rpcMinInterval then discard (number g name s.nodes.interval)

/-- Reads what a resolution is told. The first bad value in the order of the arguments counts. -/
def readResolve (s : Settings) (d : Disk) (g : Given) : Except Status Command := do
  (g.order resolveNames).forM (checkResolve s d g)
  let candidates ← file d g candidatesFile (candidatesOf s.pipeline.scanFolder)
  let nodes ← file d g rpcConfigFile s.nodes.file
  let timeout ← integer g rpcTimeout s.nodes.timeout
  let rounds ← integer g rpcMaxRetries s.nodes.rounds
  let interval ← number g rpcMinInterval s.nodes.interval
  checkExtra g
  return .resolve {
    candidates, nodes, timeout, rounds, interval
    folder := text g outputDir s.pipeline.resolutionFolder
    logLevel := text g logLevel s.general.logLevel
    logFile := (g.value? logFile).or s.general.logFile }

/-- Reads the arguments of a command; a request for help comes before all values. -/
def readArguments (names : List OptionName) (args : List String)
    (command : Given → Except Status Command) : Except Status Command := do
  let g ← (Given.ofArguments names args).mapError .misused
  if g.help then .ok (.notice (.options names)) else command g

/-- A command that is not known. Where its name looks like an option it may still ask for a notice. -/
def unknown (name : String) (args : List String) : Except Status Command :=
  match Start.read none (name :: args) with
  | .ok (.notice n) => .ok (.notice n)
  | _ => .error (.misused (.unknownCommand name))

def ofArguments (s : Settings) (d : Disk) (args : List String) : Except Status Command := do
  match ← (Start.read none args).mapError .misused with
  | .notice n => .ok (.notice n)
  | .command "proxy_detection" args => readArguments scanNames args (readScan s)
  | .command "multi_proxy_analysis" args => readArguments resolveNames args (readResolve s d)
  | .command name args => unknown name args

end Command

end ProxyCensus
