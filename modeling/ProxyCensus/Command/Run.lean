import ProxyCensus.Command.Basic
import ProxyCensus.Job.Resolve
import ProxyCensus.Job.Scan
import ProxyCensus.Logging

/-!
# Running commands

A command sets up logging, runs its job and closes the connection to the corpus, whatever becomes of
the job. How the job ended decides how the program ends.
-/

namespace ProxyCensus

variable {τ α : Type}

/-- Runs a job to its end: says how it ended, closes the connection to the corpus, and tells how the
program ends. -/
def Job.conclude (logger failure : String) (run : Act (Job τ α) Unit) : Act (Job τ α) Status := do
  match ← run.outcome with
  | .error _ =>
    Job.writing (Journal.log .error logger failure)
    Job.writing Corpus.close
    return .failed
  | .ok _ =>
    Job.writing Corpus.close
    if (← Act.state).interrupted then return .interrupted
    Job.writing (Journal.log .info logger "Completed")
    return .completed

def Job.onTask {β : Type} (task : τ) (x : Act (Job τ α) β) : Act (Journal α) β :=
  Act.of fun j =>
    let (r, job) := x.go { task, journal := j }
    (r, job.journal)

namespace Command

variable (out : Outside Float)

def nameCorpus (s : Settings) : Act (Journal α) Unit :=
  Act.change fun j => { j with logs := j.logs.push s.corpus.report }

def runScan (s : Settings) (o : ScanOptions) : Act (Journal Float) Status := do
  nameCorpus s
  let folder := Folder.ofText (← Act.state).disk o.folder
  match Scan.start? Catalog.builtIn folder o.batch (.whole 5000) with
  | .error f => return .broken f
  | .ok task =>
    Job.onTask task (Job.conclude "Proxy Detection" "Corpus scan failed:" (Scan.run out))

def load (name : String) : Act (Journal α) Json := do
  let d := (← Act.state).disk
  let text ← Act.lift (d.load (d.place name))
  match Json.ofFile? text with
  | some v => return v
  | none => throw .malformedDocument

def resolveTask (o : ResolveOptions) (folder : Folder) (candidates nodes : List (String × Json)) :
    ResolveTask Float where
  folder := folder
  candidates := candidates
  nodes := nodes
  rounds := o.rounds
  timeout := (Decimal.ofInt? o.timeout).getD (Decimal.infinity (o.timeout < 0))
  interval := o.interval

def runResolve (s : Settings) (o : ResolveOptions) : Act (Journal Float) Status := do
  let candidates ← load o.candidates
  let nodes ← load o.nodes
  match candidates, nodes with
  | .obj candidates, .obj nodes =>
    nameCorpus s
    let folder := Folder.ofText (← Act.state).disk o.folder
    Job.onTask (resolveTask o folder candidates nodes)
      (Job.conclude "Multi Proxy Analysis" "Candidate resolution failed:" (Resolve.run out))
  | _, _ => return .misused .noObject

def orBroken (x : Act (Journal α) Status) : Act (Journal α) Status := do
  match ← x.outcome with
  | .ok status => return status
  | .error f => return .broken f

def deliver (time : String) (l : Logging) : Act (Journal α) (Array LogRecord) := do
  let logs := l.keep (← Act.state).logs
  let text := String.join (logs.toList.map (Logging.lineOf time))
  discard (Journal.onDisk (l.store text)).outcome
  return logs

structure Ending where
  status : Status
  /-- What the program tells about itself, when it is asked. -/
  notice : Option Notice := none
  logs : Array LogRecord := #[]
  /-- Whether the file for the log could not be opened. -/
  warned : Bool := false

def withLogging (time : String) (file : Option String) (level : String)
    (x : Act (Journal α) Status) : Act (Journal α) Ending := do
  match ← (Journal.onDisk (Logging.configure file (Logging.levelOfText level))).outcome with
  | .error f => return { status := .broken f }
  | .ok logging =>
    let status ← orBroken x
    return { status, logs := ← deliver time logging, warned := logging.refused }

def runArguments (s : Settings) (time : String) (args : List String) :
    Act (Journal Float) Ending := do
  match ofArguments s (← Act.state).disk args with
  | .error status => return { status }
  | .ok (.notice n) => return { status := .completed, notice := some n }
  | .ok (.scan o) => withLogging time o.logFile o.logLevel (runScan out s o)
  | .ok (.resolve o) => withLogging time o.logFile o.logLevel (runResolve out s o)

end Command

end ProxyCensus
