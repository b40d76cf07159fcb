import ProxyCensus.Analysis
import ProxyCensus.Corpus
import ProxyCensus.Job.Flush
import ProxyCensus.Progress
import ProxyCensus.Tally.Resolution

/-!
# The resolution of candidates

The candidates of a scan, chain by chain, are classified with the contracts behind their patterns.
Results are flushed after every chain and at the end. A candidate that cannot be classified is
reported and skipped.
-/

namespace ProxyCensus

/-- A resolution of candidates. -/
structure ResolveTask (α : Type) where
  catalog : List Definition := Catalog.builtIn
  folder : Folder
  /-- The listed addresses of each chain. -/
  candidates : List (String × Json)
  /-- The addresses of the nodes of each chain. -/
  nodes : List (String × Json)
  rounds : Int
  timeout : Float
  interval : α
  tally : ResolutionTally := {}
  progress : Progress := { name := "candidate resolution", logger := "Resolve Candidates Job"
                           itemStep := .whole 100 }

abbrev Resolve (α : Type) := Job (ResolveTask α) α

structure Visit (α : Type) where
  client : Client α
  job : Resolve α

namespace Visit

variable {α β : Type}

def asking (x : Act (Line α) β) : Act (Visit α) β :=
  Act.on (fun v => ⟨v.client, v.job.journal⟩)
    (fun v l => { client := l.client, job := { v.job with journal := l.journal } }) x

def working (x : Act (Resolve α) β) : Act (Visit α) β :=
  Act.on Visit.job (fun v job => { v with job }) x

end Visit

namespace Resolve

variable {α : Type}

def logger : String := "Resolve Candidates Job"

def tracking {β : Type} (x : Act (Tracked α) β) : Act (Resolve α) β :=
  Act.on (fun job => ⟨job.task.progress, job.journal⟩)
    (fun job t => { job with task := { job.task with progress := t.progress }, journal := t.journal })
    x

def log (level : Level) (message : String) : Act (Resolve α) Unit :=
  Job.writing (Journal.log level logger message)

def skip (count : Int) : Act (Resolve α) Unit :=
  tracking (Tracked.track count true)

def skipWith (level : Level) (message : String) : Act (Resolve α) Unit := do
  log level message
  skip 1

/-- The addresses that a value lists: the items of a list, the characters of a text, or the keys of
an object. -/
def listed? : Json → Option (List Json)
  | .arr items => some items
  | .str s => some (s.toList.map fun c => .str c.toString)
  | .obj fields => some (fields.map fun f => .str f.1)
  | _ => none

def totalListed : List (String × Json) → Except Failure Nat
  | [] => .ok 0
  | (_, v) :: rest =>
    match listed? v with
    | some items => (totalListed rest).map (items.length + ·)
    | none => .error .wrongKind

def begin (out : Outside α) : Act (Resolve α) Unit := do
  let candidates := (← Act.state).task.candidates
  let total ← Act.lift (totalListed candidates)
  log .info s!"Resolving {total} candidate contracts on {candidates.length} chains"
  tracking (Tracked.start out (some total))

/-- Replaces the files by what was counted so far. -/
def flush (out : Outside α) : Act (Resolve α) Unit := do
  let task := (← Act.state).task
  Job.writing (Journal.flush out task.folder task.tally.artifacts)

def search (catalog : List Definition) (chain : String) (address code : Json) :
    Except Failure (ContractRecord × List Match) := do
  let record ← ContractRecord.ofCode (.str chain) address code
  return (record, ← Detection.inText catalog record.bytecode)

def skipUnsearched (chain address : String) (f : Failure) : Act (Resolve α) Unit :=
  if f.isDataFault then
    let reason := f.message
    skipWith .warning
      s!"Proxy detection failed for address {address} on chain {chain}, skipping: {reason}"
  else
    let reason := f.describe
    skipWith .error
      s!"Unexpected error detecting proxies of address {address} on chain {chain}: {reason}"

variable [Seconds α]

def resolveMatches (out : Outside α) (chain address : String) (chainId : Int)
    (record : ContractRecord) (found : List Match) : Act (Visit α) Unit := do
  match ← (Visit.asking (Analysis.resolve out (some chainId) record found)).outcome with
  | .ok c => Visit.working do
    Job.adjust fun task => { task with tally := task.tally.record c }
    tracking (Tracked.track 1 false)
  | .error f =>
    let reason := f.describe
    Visit.working (skipWith .error
      s!"Unexpected error resolving address {address} on chain {chain}: {reason}")

def resolveCode (out : Outside α) (chain : String) (chainId : Int) (address code : Json) :
    Act (Visit α) Unit := do
  let catalog := (← Act.state).job.task.catalog
  let name := address.display
  match search catalog chain address code with
  | .error f => Visit.working (skipUnsearched chain name f)
  | .ok (record, found) =>
    if found.length < 2 then
      Visit.working (skipWith .warning
        s!"Just {found.length} proxies found for address {name} on chain {chain}, skipping")
    else resolveMatches out chain name chainId record found

def resolveCandidate (out : Outside α) (chain : String) (chainId : Int) (address : Json) :
    Act (Visit α) Unit := do
  let codes ← Visit.working (Job.writing (Corpus.fetchCodes out address (.int chainId)))
  let name := address.display
  match codes with
  | [code] => resolveCode out chain chainId address code
  | [] => Visit.working (skipWith .warning
      s!"No contract found for address {name} on chain {chain}, skipping")
  | several =>
    let reason := Corpus.inconsistency chain name several.length
    Visit.working (skipWith .warning s!"{reason}, skipping")

/-- Classifies the candidates of a chain one by one; the result says whether the job is to stop. -/
def resolveAddresses (out : Outside α) (chain : String) (chainId : Int) :
    List Json → Act (Visit α) Bool
  | [] => pure false
  | address :: rest => do
    if ← Visit.working (Job.shouldStop out) then return true
    resolveCandidate out chain chainId address
    resolveAddresses out chain chainId rest

/-- Works on a chain with a client of its own, whose connection is closed in any case. -/
def visit (out : Outside α) (chain : String) (chainId : Int) (url : Json) (addresses : List Json) :
    Act (Resolve α) Bool := do
  let task := (← Act.state).task
  let client ← Act.lift (Client.ofUrl? url task.rounds task.timeout task.interval)
  Act.of fun job =>
    let (r, v) := ((resolveAddresses out chain chainId addresses).andFinally
      (Visit.asking Line.close)).go ⟨client, job⟩
    (r, v.job)

def resolveChain (out : Outside α) (chain : String) (addresses : List Json) :
    Act (Resolve α) Bool := do
  let url := (Json.lookup? (← Act.state).task.nodes chain).getD .null
  if !url.isSet then
    log .warning s!"No RPC URL for chain id {chain}, skipping {addresses.length} contracts"
    skip addresses.length
    return false
  match Text.int? chain with
  | none =>
    let name := Text.quoted chain
    log .warning s!"Invalid chain id {name}, skipping {addresses.length} contracts"
    skip addresses.length
    return false
  | some chainId =>
    log .info s!"Processing chain id {chain}"
    Job.adjust fun task => { task with tally := task.tally.addChain chain }
    if ← visit out chain chainId url addresses then return true
    flush out
    return false

def resolveChains (out : Outside α) : List (String × Json) → Act (Resolve α) Unit
  | [] => pure ()
  | (chain, v) :: rest => do
    if ← Job.shouldStop out then return
    if ← resolveChain out chain ((listed? v).getD []) then return
    resolveChains out rest

def work (out : Outside α) : Act (Resolve α) Unit := do
  resolveChains out (← Act.state).task.candidates

omit [Seconds α] in
def summarize : Act (Resolve α) Unit := do
  let t := (← Act.state).task.tally
  let chains := (Json.arr (t.chains.map .str)).literal
  let types := (Json.obj (t.types.entries.map fun e => (e.1, .int e.2))).literal
  let counts := Json.enclosed '\x7b' '\x7d' (t.counts.entries.map fun e =>
    toString e.1 ++ ": " ++ toString e.2)
  let diamonds := (t.diamonds.values.map List.length).foldl (· + ·) 0
  log .info s!"Processed contracts: {t.processed}"
  log .info s!"Checked chains: {chains}"
  log .info s!"Multi proxy contract types: {types}"
  log .info s!"Number of implementation addresses count: {counts}"
  log .info s!"Diamond proxies: {diamonds}"

omit [Seconds α] in
def finish (out : Outside α) : Act (Resolve α) Unit := do
  tracking (Tracked.finish out)
  if ← Job.lastFlush (flush out) logger "candidate resolution" then
    summarize
    let job ← Act.state
    if job.interrupted then
      log .warning
        s!"Candidate resolution interrupted after {job.task.tally.processed} contracts"

def run (out : Outside α) : Act (Resolve α) Unit :=
  Job.run (begin out) (work out) (finish out)

end Resolve

end ProxyCensus
