import ProxyCensus.Command.Run
import ProxyCensus.Proofs.Checkpoint.Shown
import ProxyCensus.Proofs.Job.ResolveRegister
import ProxyCensus.Proofs.Job.ResolveSessions
import ProxyCensus.Proofs.Job.ScanBooks

/-!
# How commands end

A command line that comes to the run of a job tells by its exit code how the run has ended. Main statement:
the code is 0 exactly when the run returns and was not interrupted, 130 exactly when it returns and was
interrupted, and 1 exactly when it fails; the corpus is closed once in any case; unless the run fails, the
folder holds the files of what the job has counted in the end; and with code 0 that covers every row of the
corpus, or every listed candidate. A command line that does not come to the run of a job does nothing with
the corpus.
-/

namespace ProxyCensus

open Snapshot (Holds waiting)

theorem Path.collapse_collapse (p : Path) : p.collapse.collapse = p.collapse := by
  have hstraight : ∀ (way here : Path), ".." ∉ here → ".." ∉ way.foldl Path.enter here := by
    intro way
    -- No step leaves a step back behind it.
    induction way with
    | nil => exact fun _ h => h
    | cons name rest ih =>
      intro here h
      apply ih
      by_cases hname : name = ".."
      · simpa [Path.enter, hname] using fun hmem => h (List.dropLast_subset here hmem)
      · simp [Path.enter, hname, h, Ne.symm hname]
  exact Snapshot.foldl_enter (hstraight p [] List.not_mem_nil) []

/-- The file to which messages go is named by a path without steps back. -/
theorem Logging.collapse_of_configure {file : Option String} {threshold : Int} {d d' : Disk}
    {logging : Logging} (h : (configure file threshold).go d = (.ok logging, d')) {p : Path}
    (hp : logging.file = some p) : p.collapse = p := by
  unfold configure at h
  split at h
  · obtain rfl := Except.ok.inj (Prod.mk.inj h).1
    cases hp
  · obtain rfl := Except.ok.inj (Prod.mk.inj h).1
    cases hp
  · rename_i name _
    obtain ⟨d₁, d₂, hstate, h⟩ := Act.go_bind_eq_ok h
    obtain ⟨opened, d₃, -, h⟩ := Act.go_bind_eq_ok h
    cases opened with
    | ok _ =>
      obtain rfl := Except.ok.inj (Prod.mk.inj h).1
      obtain rfl := Option.some.inj hp
      exact Path.collapse_collapse _
    | error f =>
      dsimp only at h
      split at h
      · obtain rfl := Except.ok.inj (Prod.mk.inj h).1
        cases hp
      · cases h

/-- How a program ends whose job has run. -/
def Status.ofRun (r : Except Failure Unit) (interrupted : Bool) : Status :=
  match r with
  | .error _ => .failed
  | .ok _ => if interrupted then .interrupted else .completed

namespace Status

variable {r : Except Failure Unit} {interrupted : Bool}

end Status

/-- However a job ends, the corpus is closed once, and the end is told. -/
theorem Job.go_conclude {τ α : Type} {run : Act (Job τ α) Unit} {job last : Job τ α}
    {r : Except Failure Unit} (logger failure : String) (hrun : run.go job = (r, last)) :
    ∃ ended, (Job.conclude logger failure run).go job = (.ok (.ofRun r last.interrupted), ended) ∧
      ended.journal.disposals = last.journal.disposals + 1 ∧
      ended.journal.disk = last.journal.disk := by
  unfold Job.conclude
  rw [Act.go_bind, Act.go_outcome, hrun]
  cases r with
  | error f => exact ⟨_, rfl, rfl, rfl⟩
  | ok _ =>
    obtain ⟨interrupted, completed, task, journal⟩ := last
    cases interrupted <;> exact ⟨_, rfl, rfl, rfl⟩

theorem Job.go_onTask {τ α β : Type} {task : τ} {x : Act (Job τ α) β} {j : Journal α}
    {r : Except Failure β} {ended : Job τ α} (h : x.go { task, journal := j } = (r, ended)) :
    (Job.onTask task x).go j = (r, ended.journal) := by
  unfold Job.onTask
  rw [Act.go_of, h]

namespace Command

inductive Running where
  | scan (job : Scan Float)
  | resolve (job : Resolve Float)

namespace Running

def run (out : Outside Float) : Running → Except Failure Unit × Running
  | scan job => (((Scan.run out).go job).1, .scan ((Scan.run out).go job).2)
  | resolve job => (((Resolve.run out).go job).1, .resolve ((Resolve.run out).go job).2)

def interrupted : Running → Bool
  | scan job => job.interrupted
  | resolve job => job.interrupted

def journal : Running → Journal Float
  | scan job => job.journal
  | resolve job => job.journal

def folder : Running → Folder
  | scan job => job.task.folder
  | resolve job => job.task.folder

def artifacts : Running → Except Failure (List (String × Document))
  | scan job => job.task.tally.artifacts
  | resolve job => .ok job.task.tally.artifacts

def progress : Running → Progress
  | scan job => job.task.progress
  | resolve job => job.task.progress

def recorded : Running → Nat
  | scan job => job.task.tally.analyzed
  | resolve job => job.task.tally.processed

/-- How many contracts there are for the job: the rows of the corpus, or the listed candidates. -/
def available (out : Outside Float) : Running → Nat
  | scan _ => out.rows.length
  | resolve job => (Resolve.listedPairs job.task.candidates).length

/-- What the job has counted comes from all contracts that there are, in their order, each of which it has
recorded or skipped. -/
def Covers (out : Outside Float) : Running → Prop
  | scan job => Scan.Booked out out.rows job
  | resolve job => Resolve.Settled out (Resolve.listedPairs job.task.candidates) job

/-- The job is about to be run for the first time. -/
def Fresh : Running → Prop
  | scan job => job.task.tally = {} ∧ job.task.progress.processed = 0 ∧ job.task.progress.skipped = 0
  | resolve job => job.task.tally = {} ∧ job.task.progress.processed = 0 ∧
      job.task.progress.skipped = 0 ∧ job.task.progress.percentStep = .whole 10

variable {out : Outside Float} {start : Running}

theorem disposals_run (out : Outside Float) (start : Running) :
    (start.run out).2.journal.disposals = start.journal.disposals := by
  cases start with
  | scan job => exact congrArg (·.2.2.2.2) (Scan.keeps_online_run out job)
  | resolve job => exact congrArg (·.2.2.2.2) (Resolve.keeps_terms_run out job)

/-- A job that covers all contracts has processed each of them, and has recorded those that it has not
skipped. -/
theorem Covers.balance {last : Running} (h : last.Covers out) :
    last.progress.processed = last.available out ∧
      last.progress.processed - last.progress.skipped = last.recorded := by
  cases last with
  | scan job => exact ⟨Scan.Books.processed_eq h, Scan.Books.balance h⟩
  | resolve job => exact ⟨Resolve.Register.processed_eq h, Resolve.Register.balance h⟩

end Running

variable {s : Settings} {args : List String} {j : Journal Float} {logging : Logging} {start : Running}

/-- The journal of a command that has set up its logging, with what that has made of the disk, and has
named the corpus. -/
def launched (s : Settings) (j : Journal Float) (d : Disk) : Journal Float :=
  { j with disk := d, logs := j.logs.push s.corpus.report }

/-- A command line comes to the run of a job: it is read, its logging can be set up, and what the job works
on is there. -/
inductive Launches (s : Settings) (args : List String) (j : Journal Float) :
    Logging → Running → Prop where
  | scan {o : ScanOptions} {logging : Logging} {d : Disk} {task : ScanTask}
    (hargs : ofArguments s j.disk args = .ok (.scan o))
    (hlogging : (Logging.configure o.logFile (Logging.levelOfText o.logLevel)).go j.disk =
      (.ok logging, d))
    (htask : Scan.start? Catalog.builtIn (Folder.ofText d o.folder) o.batch (.whole 5000) = .ok task) :
    Launches s args j logging (.scan { task, journal := launched s j d })
  | resolve {o : ResolveOptions} {logging : Logging} {d : Disk} {candidates nodes : List (String × Json)}
    (hargs : ofArguments s j.disk args = .ok (.resolve o))
    (hlogging : (Logging.configure o.logFile (Logging.levelOfText o.logLevel)).go j.disk =
      (.ok logging, d))
    (hcandidates : ((load o.candidates).go { j with disk := d }).1 = .ok (.obj candidates))
    (hnodes : ((load o.nodes).go { j with disk := d }).1 = .ok (.obj nodes)) :
    Launches s args j logging (.resolve {
      task := resolveTask o (Folder.ofText d o.folder) candidates nodes
      journal := launched s j d })

theorem Launches.fresh (h : Launches s args j logging start) : start.Fresh := by
  cases h with
  | scan hargs hlogging htask =>
    unfold Scan.start? at htask
    split at htask
    · obtain rfl := Except.ok.inj htask
      exact ⟨rfl, rfl, rfl⟩
    · cases htask
  | resolve hargs hlogging hcandidates hnodes => exact ⟨rfl, rfl, rfl, rfl⟩

theorem Launches.disposals (h : Launches s args j logging start) :
    start.journal.disposals = j.disposals := by
  cases h <;> rfl

theorem go_load {α : Type} (name : String) (j : Journal α) : ((load name).go j).2 = j := by
  unfold load
  rw [Act.go_bind, Act.go_state]
  dsimp only
  rw [Act.go_bind, Act.go_lift]
  cases j.disk.load (j.disk.place name) with
  | error f => rfl
  | ok text =>
    dsimp only
    cases Json.ofFile? text <;> rfl

theorem go_deliver {α : Type} (time : String) (l : Logging) (j : Journal α) :
    ∃ logs text, (deliver time l).go j =
      (.ok logs, { j with disk := ((l.store text).go j.disk).2 }) :=
  ⟨_, _, rfl⟩

theorem get?_store {text : String} {d : Disk} {p : Path}
    (hplain : ∀ q, logging.file = some q → q.collapse = q)
    (hp : logging.file ≠ some p) : ((logging.store text).go d).2.get? p = d.get? p := by
  unfold Logging.store
  cases hfile : logging.file with
  | none => rfl
  | some q =>
    refine Disk.get?_append q text d ?_
    rintro rfl
    rw [hplain q hfile] at hp
    exact hp hfile

/-- What a command does that has set up its logging is all that it does, but for the messages. -/
theorem go_withLogging {α : Type} {file : Option String} {level : String} {j j' : Journal α} {d : Disk}
    {x : Act (Journal α) Status} {status : Status} (time : String)
    (hlogging : (Logging.configure file (Logging.levelOfText level)).go j.disk = (.ok logging, d))
    (hx : x.go { j with disk := d } = (.ok status, j')) :
    ∃ e final, (withLogging time file level x).go j = (.ok e, final) ∧ e.status = status ∧
      final.disposals = j'.disposals ∧
      ∀ p, logging.file ≠ some p → final.disk.get? p = j'.disk.get? p := by
  obtain ⟨logs, text, hdeliver⟩ := go_deliver time logging j'
  refine ⟨{ status, logs, warned := logging.refused },
    { j' with disk := ((logging.store text).go j'.disk).2 }, ?_, rfl, rfl, fun p hp => ?_⟩
  · unfold withLogging Journal.onDisk orBroken
    rw [Act.go_bind, Act.go_outcome, Act.go_on, hlogging]
    dsimp only
    rw [Act.go_bind, Act.go_bind, Act.go_outcome, hx]
    dsimp only
    rw [Act.go_pure]
    dsimp only
    rw [Act.go_bind, hdeliver]
    rfl
  · exact get?_store (fun q => Logging.collapse_of_configure hlogging) hp

variable {d : Disk} (out : Outside Float)

theorem go_runScan {o : ScanOptions} {task : ScanTask} {last : Scan Float} {r : Except Failure Unit}
    (htask : Scan.start? Catalog.builtIn (Folder.ofText d o.folder) o.batch (.whole 5000) = .ok task)
    (hrun : (Scan.run out).go { task, journal := launched s j d } = (r, last)) :
    ∃ j', (runScan out s o).go { j with disk := d } = (.ok (.ofRun r last.interrupted), j') ∧
      j'.disposals = last.journal.disposals + 1 ∧ j'.disk = last.journal.disk := by
  obtain ⟨ended, hconclude, hdisposals, hdisk⟩ :=
    Job.go_conclude "Proxy Detection" "Corpus scan failed:" hrun
  refine ⟨ended.journal, ?_, hdisposals, hdisk⟩
  unfold runScan nameCorpus
  rw [Act.go_bind, Act.go_change]
  dsimp only
  rw [Act.go_bind, Act.go_state]
  dsimp only
  rw [htask]
  exact Job.go_onTask hconclude

theorem go_runResolve {o : ResolveOptions} {candidates nodes : List (String × Json)} {last : Resolve Float}
    {r : Except Failure Unit}
    (hcandidates : ((load o.candidates).go { j with disk := d }).1 = .ok (.obj candidates))
    (hnodes : ((load o.nodes).go { j with disk := d }).1 = .ok (.obj nodes))
    (hrun : (Resolve.run out).go {
      task := resolveTask o (Folder.ofText d o.folder) candidates nodes
      journal := launched s j d } = (r, last)) :
    ∃ j', (runResolve out s o).go { j with disk := d } = (.ok (.ofRun r last.interrupted), j') ∧
      j'.disposals = last.journal.disposals + 1 ∧ j'.disk = last.journal.disk := by
  obtain ⟨ended, hconclude, hdisposals, hdisk⟩ :=
    Job.go_conclude "Multi Proxy Analysis" "Candidate resolution failed:" hrun
  refine ⟨ended.journal, ?_, hdisposals, hdisk⟩
  unfold runResolve
  rw [Act.go_bind_of_ok hcandidates, go_load, Act.go_bind_of_ok hnodes, go_load]
  dsimp only [nameCorpus]
  rw [Act.go_bind, Act.go_change]
  dsimp only
  rw [Act.go_bind, Act.go_state]
  exact Job.go_onTask hconclude

/-- A command line that comes to the run of a job ends as the run does, closes the corpus, and changes no
other file than that of the log. -/
theorem Launches.go_runArguments (h : Launches s args j logging start) (time : String) :
    ∃ e final, (runArguments out s time args).go j = (.ok e, final) ∧
      e.status = .ofRun (start.run out).1 (start.run out).2.interrupted ∧
      final.disposals = (start.run out).2.journal.disposals + 1 ∧
      ∀ p, logging.file ≠ some p → final.disk.get? p = (start.run out).2.journal.disk.get? p := by
  unfold runArguments
  rw [Act.go_bind, Act.go_state]
  dsimp only
  cases h with
  | scan hargs hlogging htask =>
    rw [hargs]
    obtain ⟨j', hgo, hdisposals, hdisk⟩ := go_runScan out htask rfl
    obtain ⟨e, final, hend, hstatus, hclosed, hfiles⟩ := go_withLogging time hlogging hgo
    exact ⟨e, final, hend, hstatus, hclosed.trans hdisposals, fun p hp => hdisk ▸ hfiles p hp⟩
  | resolve hargs hlogging hcandidates hnodes =>
    rw [hargs]
    obtain ⟨j', hgo, hdisposals, hdisk⟩ := go_runResolve out hcandidates hnodes rfl
    obtain ⟨e, final, hend, hstatus, hclosed, hfiles⟩ := go_withLogging time hlogging hgo
    exact ⟨e, final, hend, hstatus, hclosed.trans hdisposals, fun p hp => hdisk ▸ hfiles p hp⟩

/-- A corpus with a contract that is no proxy and a row that is none, and what comes in the way of its
scan. -/
def twoRows (disturbance : Option Disturbance) : Outside Float where
  reply _ _ := ⟨0, .http 500 .empty⟩
  jitter _ := 0
  stopwatch _ := .real 0
  date _ := 0
  stop _ := false
  disturbance _ := disturbance
  rows := [[("chain_id", .int 1), ("address", .str "0x1111111111111111111111111111111111111111"),
    ("code", .str "0x00")], [("chain_id", .int 1), ("address", .str "0x22")]]
  codes _ _ := []
  flushFault _ := none

def scanToOut : Scan Float where
  task :=
    { folder := Folder.ofText {} "out", batch := 1000, batch_pos := by decide
      progress := { name := "corpus scan", logger := Scan.logger, itemStep := .whole 5000 } }
  journal := launched {} { clock := 0 } {}

def scanned (disturbance : Option Disturbance) : Running :=
  (Running.run (twoRows disturbance) (.scan scanToOut)).2

section

variable (time : String)

theorem disposals_withLogging {α : Type} {file : Option String} {level : String} {j : Journal α}
    {x : Act (Journal α) Status}
    (hx : ∀ logging d, (Logging.configure file (Logging.levelOfText level)).go j.disk = (.ok logging, d) →
      (x.go { j with disk := d }).2.disposals = j.disposals) :
    ((withLogging time file level x).go j).2.disposals = j.disposals := by
  unfold withLogging Journal.onDisk
  rw [Act.go_bind, Act.go_outcome, Act.go_on]
  rcases hconfigure : (Logging.configure file (Logging.levelOfText level)).go j.disk with ⟨f | logging, d⟩
  · rfl
  · have hkept := hx logging d hconfigure
    dsimp only
    unfold orBroken
    rw [Act.go_bind, Act.go_bind, Act.go_outcome]
    rcases hgo : x.go { j with disk := d } with ⟨f | status, j'⟩ <;>
      · rw [hgo] at hkept
        exact hkept

theorem disposals_of_not_launches (h : ∀ logging start, ¬Launches s args j logging start) :
    ((runArguments out s time args).go j).2.disposals = j.disposals := by
  unfold runArguments
  rw [Act.go_bind, Act.go_state]
  dsimp only
  rcases hargs : ofArguments s j.disk args with status | n | o | o
  · rfl
  · rfl
  · refine disposals_withLogging time fun logging d hlogging => ?_
    unfold runScan nameCorpus
    rw [Act.go_bind, Act.go_change]
    dsimp only
    rw [Act.go_bind, Act.go_state]
    dsimp only
    cases htask : Scan.start? Catalog.builtIn (Folder.ofText d o.folder) o.batch (.whole 5000) with
    | error f => rfl
    | ok task => exact absurd (.scan hargs hlogging htask) (h _ _)
  · refine disposals_withLogging time fun logging d hlogging => ?_
    unfold runResolve
    rcases hcandidates : ((load o.candidates).go { j with disk := d }).1 with f | candidates
    · rw [Act.go_bind_of_error hcandidates, go_load]
    · rw [Act.go_bind_of_ok hcandidates, go_load]
      rcases hnodes : ((load o.nodes).go { j with disk := d }).1 with f | nodes
      · rw [Act.go_bind_of_error hnodes, go_load]
      · rw [Act.go_bind_of_ok hnodes, go_load]
        dsimp only
        split
        · exact absurd (.resolve hargs hlogging hcandidates hnodes) (h _ _)
        · rfl

/-- The corpus is closed exactly when a command line comes to the run of a job. -/
theorem disposals_succ_iff_launches :
    ((runArguments out s time args).go j).2.disposals = j.disposals + 1 ↔
      ∃ logging start, Launches s args j logging start := by
  constructor
  · intro hclosed
    by_contra hnone
    have hopen := disposals_of_not_launches out time fun logging start h => hnone ⟨logging, start, h⟩
    omega
  · rintro ⟨logging, start, h⟩
    obtain ⟨e, final, hgo, -, hclosed, -⟩ := h.go_runArguments out time
    rw [hgo, hclosed, Running.disposals_run, h.disposals]

end

end Command

end ProxyCensus
