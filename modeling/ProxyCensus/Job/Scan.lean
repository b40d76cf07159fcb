import ProxyCensus.Corpus
import ProxyCensus.Job.Flush
import ProxyCensus.Progress
import ProxyCensus.Tally.Scan

/-!
# The scan of the corpus

All contracts of the corpus, page by page, are searched for patterns. Results are flushed after
every page and at the end. A contract that cannot be searched is reported and skipped.
-/

namespace ProxyCensus

/-- A scan of the corpus. -/
structure ScanTask where
  catalog : List Definition := Catalog.builtIn
  folder : Folder
  /-- How many rows a page has. -/
  batch : Nat
  batch_pos : 0 < batch
  tally : ScanTally := {}
  pages : Nat := 0
  progress : Progress

abbrev Scan (α : Type) := Job ScanTask α

namespace Scan

variable {α : Type}

def logger : String := "Scan Corpus Job"

def start? (catalog : List Definition) (folder : Folder) (batch : Int) (itemStep : Decimal.Number) :
    Except Failure ScanTask :=
  if h : 0 < batch.toNat then
    .ok { catalog, folder, batch := batch.toNat, batch_pos := h
          progress := { name := "corpus scan", logger, itemStep } }
  else .error (.badValue "batch_size must be greater than 0")

def tracking {β : Type} (x : Act (Tracked α) β) : Act (Scan α) β :=
  Act.on (fun job => ⟨job.task.progress, job.journal⟩)
    (fun job t => { job with task := { job.task with progress := t.progress }, journal := t.journal })
    x

def log (level : Level) (message : String) : Act (Scan α) Unit :=
  Job.writing (Journal.log level logger message)

def begin (out : Outside α) : Act (Scan α) Unit := do
  let batch := (← Act.state).task.batch
  log .info (s!"Starting corpus scan with page size {batch} " ++
    s!"(pattern catalog {Catalog.version})")
  tracking (Tracked.start out none)

def flush (out : Outside α) : Act (Scan α) Unit := do
  let task := (← Act.state).task
  Job.writing (Journal.flush out task.folder (← Act.lift task.tally.artifacts))

/-- The milliseconds between two readings of the stopwatch, which counts seconds. -/
def milliseconds (before after : Decimal.Number) : Except Failure Decimal.Number :=
  Failure.orElse .largeInteger ((after.sub? before).bind (·.mul? (.whole 1000)))

def classify (out : Outside α) (row : Row) : Act (Scan α) (Classification × Decimal.Number) := do
  let record ← Act.lift (ContractRecord.ofRow row)
  let before ← Job.writing (Journal.stopwatch out)
  let c ← Act.lift (Classification.ofRecord (← Act.state).task.catalog record)
  let after ← Job.writing (Journal.stopwatch out)
  return (c, ← Act.lift (milliseconds before after))

def reportRow (row : Row) (f : Failure) : Act (Scan α) Unit :=
  let fields := Json.obj row
  let address := (fields.getD "address").display
  let chain := (fields.getD "chain_id").display
  if f.isDataFault then
    let reason := f.message
    log .warning s!"Skipping address {address} on chain {chain}: {reason}"
  else
    let reason := f.describe
    log .error s!"Unexpected error scanning address {address} on chain {chain}: {reason}"

def scanRow (out : Outside α) (row : Row) : Act (Scan α) Unit := do
  match ← (classify out row).outcome with
  | .ok (c, duration) =>
    Job.adjust fun task => { task with tally := task.tally.record c duration }
    tracking (Tracked.track 1 false)
  | .error f =>
    reportRow row f
    tracking (Tracked.track 1 true)

/-- Searches the contracts of a page one by one; the result says whether the job is to stop. -/
def scanRows (out : Outside α) : List Row → Act (Scan α) Bool
  | [] => pure false
  | row :: rest => do
    if ← Job.shouldStop out then return true
    scanRow out row
    scanRows out rest

/-- Counts a page unless it is empty. -/
def countPage (page : List Row) : Act (Scan α) Unit :=
  if page.isEmpty then pure ()
  else Job.adjust fun task => { task with pages := task.pages + 1 }

/-- Scans page by page from an offset on. A page that is not full is the last one. -/
def scanPages (out : Outside α) (batch : Nat) (h : 0 < batch) (offset : Nat) :
    Act (Scan α) Unit := do
  let page ← Job.writing (Corpus.fetchPage out offset batch)
  countPage page
  if ← scanRows out page then return
  flush out
  if hp : (Corpus.page out.rows offset batch).length < batch then return
  else
    have := Corpus.length_sub_lt h hp
    scanPages out batch h (offset + batch)
  termination_by out.rows.length - offset

def work (out : Outside α) : Act (Scan α) Unit := do
  let task := (← Act.state).task
  scanPages out task.batch task.batch_pos 0

def countsText {κ : Type} (key : κ → String) (l : Ledger κ Nat) : String :=
  Json.enclosed '\x7b' '\x7d' (l.entries.map fun e => key e.1 ++ ": " ++ toString e.2)

def averageText (stats : Option DurationStats) : String :=
  match stats with
  | some s => Decimal.Layout.message.text s.average
  | none => "None"

def summarize : Act (Scan α) Unit := do
  let task := (← Act.state).task
  let t := task.tally
  let types := countsText (fun p => Text.quoted p.name) t.types
  let counts := countsText toString t.counts
  let average := averageText (← Act.lift t.stats)
  log .info s!"Analyzed contracts: {t.analyzed} in {task.pages} pages"
  log .info s!"Average detection duration: {average} ms"
  log .info s!"Total proxies: {t.proxies}"
  log .info s!"Proxy types by name: {types}"
  log .info s!"Contracts with multiple proxies detected: {counts}"

def finish (out : Outside α) : Act (Scan α) Unit := do
  tracking (Tracked.finish out)
  if ← Job.lastFlush (flush out) logger "corpus scan" then
    summarize
    let job ← Act.state
    if job.interrupted then
      log .warning s!"Corpus scan interrupted after {job.task.tally.analyzed} contracts"

def run (out : Outside α) : Act (Scan α) Unit :=
  Job.run (begin out) (work out) (finish out)

end Scan

end ProxyCensus
