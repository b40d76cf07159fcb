import ProxyCensus.Proofs.Job.ResolveChains
import ProxyCensus.Proofs.Job.ResolveCourse
import ProxyCensus.Proofs.Resolution.Alike

/-!
# Resolutions that are alike

Two resolutions are compared by all but the candidates that are listed, the counters of the progress, the
messages, the questions to the corpus and how often it was asked whether to stop. Main statement: from
visits that agree a candidate makes visits that agree, and one that is not found makes no difference.
-/

namespace ProxyCensus

open Act (Keeps Alike)

variable {α : Type}

/-- A resolution without its candidates and the counters of its progress, and with a bare journal. -/
def Resolve.bare (job : Resolve α) : Resolve α :=
  { job with
    task := { job.task with
      candidates := []
      progress := { job.task.progress with total := none, processed := 0, skipped := 0 } }
    journal := job.journal.bare }

namespace Visit

/-- A visit with a bare resolution. -/
def bare (v : Visit α) : Visit α :=
  { v with job := v.job.bare }

def line (v : Visit α) : Line α :=
  ⟨v.client, v.job.journal⟩

def afterAnalysis (v : Visit α) (result : Except Failure Classification × Line α) : Visit α :=
  { client := result.2.client
    job := { v.job with
      task := Resolve.settled v.job.task result.1.toOption
      journal := result.2.journal } }

end Visit

/-- What differs between resolutions that are alike. -/
theorem Resolve.exists_of_bare {job job' : Resolve α} (h : job.bare = job'.bare) :
    ∃ candidates total processed skipped logs queries stops, job' = { job with
      task := { job.task with
        candidates := candidates
        progress := { job.task.progress with
          total := total, processed := processed, skipped := skipped } }
      journal := { job.journal with logs := logs, queries := queries, stops := stops } } := by
  obtain ⟨interrupted, completed, task, journal⟩ := job
  obtain ⟨interrupted', completed', task', journal'⟩ := job'
  simp only [bare, Job.mk.injEq] at h
  obtain ⟨rfl, rfl, htask, hjournal⟩ := h
  obtain ⟨logs, queries, stops, rfl⟩ := Journal.exists_of_bare hjournal
  refine ⟨task'.candidates, task'.progress.total, task'.progress.processed, task'.progress.skipped,
    logs, queries, stops, ?_⟩
  obtain ⟨catalog, folder, candidates, nodes, rounds, timeout, interval, tally, progress⟩ := task
  obtain ⟨catalog', folder', candidates', nodes', rounds', timeout', interval', tally', progress'⟩ :=
    task'
  simp only [ResolveTask.mk.injEq, Progress.mk.injEq] at htask
  obtain ⟨rfl, rfl, -, rfl, rfl, rfl, rfl, rfl, hname, hlogger, hpercent, hitem, -, hstarted, -⟩ := htask
  obtain ⟨name, logger, percentStep, itemStep, total, started, processed, skipped⟩ := progress
  obtain ⟨name', logger', percentStep', itemStep', total', started', processed', skipped'⟩ := progress'
  obtain rfl : name = name' := hname
  obtain rfl : logger = logger' := hlogger
  obtain rfl : percentStep = percentStep' := hpercent
  obtain rfl : itemStep = itemStep' := hitem
  obtain rfl : started = started' := hstarted
  rfl

theorem Visit.exists_of_bare {v v' : Visit α} (h : v.bare = v'.bare) :
    v.job.bare = v'.job.bare ∧ v.client = v'.client ∧ v.line.bare = v'.line.bare := by
  obtain ⟨hclient, hjob⟩ := Visit.mk.inj h
  exact ⟨hjob, hclient, congrArg₂ Line.mk hclient (congrArg Job.journal hjob)⟩

theorem Resolve.setup_of_bare {job job' : Resolve α} (h : job.bare = job'.bare) :
    job'.task.catalog = job.task.catalog ∧ job'.task.nodes = job.task.nodes ∧
      job'.task.rounds = job.task.rounds ∧ job'.task.timeout = job.task.timeout ∧
      job'.task.interval = job.task.interval := by
  obtain ⟨_, _, _, _, _, _, _, rfl⟩ := exists_of_bare h
  exact ⟨rfl, rfl, rfl, rfl, rfl⟩

variable {out out' : Outside α}

theorem Journal.alike_flush (hfault : out'.flushFault = out.flushFault) (folder : Folder)
    (artifacts : List (String × Document)) :
    Alike Journal.bare (Journal.flush out folder artifacts) (Journal.flush out' folder artifacts) := by
  have hsame : ∀ {f g : Journal α → Journal α},
      (∀ (j : Journal α) logs queries stops,
        (f j).bare = (g { j with logs := logs, queries := queries, stops := stops }).bare) →
      Alike Journal.bare (Act.change f) (Act.change g) := by
    intro f g h
    refine .change fun j j' hpart => ?_
    obtain ⟨logs, queries, stops, rfl⟩ := Journal.exists_of_bare hpart
    exact h j logs queries stops
  refine .bind_state fun j j' hpart => ?_
  obtain ⟨logs, queries, stops, rfl⟩ := Journal.exists_of_bare hpart
  dsimp only
  refine (hsame fun _ _ _ _ => rfl).bind fun _ => ?_
  rw [hfault]
  cases out.flushFault j.flushCalls with
  | some f => exact (hsame fun _ _ _ _ => rfl).bind fun _ => .throw f
  | none =>
    refine .bind ?_ fun _ => hsame fun _ _ _ _ => rfl
    intro j j' hpart
    obtain ⟨logs, queries, stops, rfl⟩ := Journal.exists_of_bare hpart
    exact ⟨rfl, rfl⟩

namespace Resolve

theorem alike_writing {β : Type} {x y : Act (Journal α) β} (h : Alike Journal.bare x y) :
    Alike (bare (α := α)) (Job.writing x) (Job.writing y) := by
  refine .on h (fun job job' hpart => congrArg Job.journal hpart) fun job job' j j' hpart hj => ?_
  obtain ⟨candidates, total, processed, skipped, logs, queries, stops, rfl⟩ := exists_of_bare hpart
  obtain ⟨logs, queries, stops, rfl⟩ := Journal.exists_of_bare hj
  rfl

theorem alike_log (level level' : Level) (message message' : String) :
    Alike (bare (α := α)) (log level message) (log level' message') :=
  .of_keeps (fun _ => rfl) (fun _ => rfl) fun _ _ => rfl

theorem alike_flush (hfault : out'.flushFault = out.flushFault) :
    Alike bare (flush out) (flush out') := by
  refine .bind_state fun job job' hpart => ?_
  obtain ⟨candidates, total, processed, skipped, logs, queries, stops, rfl⟩ := exists_of_bare hpart
  exact alike_writing (Journal.alike_flush hfault _ _)

theorem alike_asking {β : Type} {x y : Act (Line α) β} (h : Alike Line.bare x y) :
    Alike Visit.bare (Visit.asking x) (Visit.asking y) := by
  refine .on h (fun v v' hpart => (Visit.exists_of_bare hpart).2.2) fun v v' l l' hpart hl => ?_
  obtain ⟨hjob, -, -⟩ := Visit.exists_of_bare hpart
  obtain ⟨candidates, total, processed, skipped, logs, queries, stops, hv⟩ := exists_of_bare hjob
  obtain ⟨logs, queries, stops, rfl⟩ := Line.exists_of_bare hl
  rw [hv]
  rfl

/-- A resolution that was not told to stop has room for `n` contracts among the `total` that it counts. -/
structure Going (total n : Nat) (job : Resolve α) : Prop where
  bounded : job.task.progress.Bounded total
  room : job.task.progress.processed + n ≤ total
  interrupted : job.interrupted = false
  stopped : job.journal.stopped = false

variable {total n : Nat} {job : Resolve α} {v v' w w' : Visit α} {chain address : String}
  {chainId : Int} {record : ContractRecord} {found : List Match}

theorem Going.mono {m : Nat} (h : Going total n job) (hm : m ≤ n) : Going total m job :=
  { h with room := by have := h.room; omega }

theorem Going.journal (h : Going total n job) {j : Journal α}
    (hstopped : j.stopped = job.journal.stopped) : Going total n { job with journal := j } :=
  { h with stopped := hstopped.trans h.stopped }

theorem Going.add (count : Nat) (h : Going total (count + n) job) (skipped : Bool)
    (tally : ResolutionTally) :
    Going total n { job with
      task := { job.task with tally := tally, progress := job.task.progress.add count skipped } } := by
  have hroom := h.room
  refine { h with bounded := h.bounded.add (by omega) skipped, room := ?_ }
  change job.task.progress.processed + (count : Int) + n ≤ total
  omega

def asked (job : Resolve α) : Resolve α :=
  { job with journal := { job.journal with stops := job.journal.stops + 1 } }

theorem Going.asked (h : Going total n job) : Going total n (asked job) :=
  h.journal rfl

theorem Going.go_shouldStop (h : Going total n job) (huntold : ∀ n, out.stop n = false) :
    (Job.shouldStop out).go job = (.ok false, Resolve.asked job) := by
  have hgo := Job.go_shouldStop out h.interrupted
  obtain ⟨interrupted, completed, task, journal⟩ := job
  obtain rfl : interrupted = false := h.interrupted
  rw [huntold, show journal.stopped = false from h.stopped] at hgo
  exact hgo

theorem go_working {β : Type} {x : Act (Resolve α) β} {r : Except Failure β} {job : Resolve α}
    (h : x.go v.job = (r, job)) : (Visit.working x).go v = (r, ⟨v.client, job⟩) := by
  rw [Visit.working, Act.go_on, h]

theorem go_of_working {β : Type} {x : Act (Resolve α) β} {v₁ : Visit α} {r : Except Failure β}
    (h : (Visit.working x).go v = (r, v₁)) :
    x.go v.job = (r, v₁.job) ∧ v₁ = ⟨v.client, v₁.job⟩ := by
  rw [Visit.working, Act.go_on] at h
  obtain ⟨hresult, rfl⟩ := Prod.mk.inj h
  exact ⟨Prod.ext hresult rfl, rfl⟩

def lookedUp (chainId : Int) (address : String) (v : Visit α) : Visit α :=
  ⟨v.client, { v.job with journal := { v.job.journal with
    queries := v.job.journal.queries.push (.code (Corpus.addressKey address) chainId) } }⟩

theorem go_lookup (hundisturbed : ∀ n, out.disturbance n = none) (chainId : Int) (address : String)
    (v : Visit α) :
    (Visit.working (Job.writing (Corpus.fetchCodes out (.str address) (.int chainId)))).go v =
      (.ok (out.codes chainId (Corpus.addressKey address)), lookedUp chainId address v) := by
  refine go_working ?_
  rw [Job.writing, Act.go_on, Corpus.go_fetchCodes hundisturbed]

def entered (chain : String) (job : Resolve α) : Resolve α :=
  { job with
    task := { job.task with tally := job.task.tally.addChain chain }
    journal := { job.journal with
      logs := job.journal.logs.push ⟨.info, logger, s!"Processing chain id {chain}"⟩ } }

theorem bare_entered {job' : Resolve α} (h : job.bare = job'.bare) (chain : String) :
    (entered chain job).bare = (entered chain job').bare := by
  obtain ⟨_, _, _, _, _, _, _, rfl⟩ := exists_of_bare h
  rfl

theorem Going.go_skipWith (h : Going total (1 + n) v.job) (level : Level) (message : String) :
    ∃ w, (Visit.working (skipWith level message)).go v = (.ok (), w) ∧ Going total n w.job ∧
      w.bare = v.bare := by
  have hroom := h.room
  obtain ⟨logs, hgo⟩ := Resolve.go_skipWith h.bounded (by omega) level message
  exact ⟨_, hgo, (h.add 1 true v.job.task.tally).journal rfl, rfl⟩

theorem alike_summarize : Alike (α := Unit) (bare (α := α)) summarize summarize := by
  refine .bind_state fun job job' hpart => ?_
  exact (alike_log _ _ _ _).bind fun _ => (alike_log _ _ _ _).bind fun _ =>
    (alike_log _ _ _ _).bind fun _ => (alike_log _ _ _ _).bind fun _ => alike_log _ _ _ _

theorem alike_lastFlush {flush flush' : Act (Resolve α) Unit} (h : Alike bare flush flush')
    (logger what : String) :
    Alike bare (Job.lastFlush flush logger what) (Job.lastFlush flush' logger what) := by
  refine h.outcome.bind fun r => ?_
  cases r with
  | ok _ => exact .pure _
  | error f =>
    refine .bind_state fun job job' hpart => ?_
    obtain ⟨candidates, total, processed, skipped, logs, queries, stops, rfl⟩ := exists_of_bare hpart
    have hlog : Alike bare (Job.writing (Journal.log .error logger s!"Final flush of the {what} failed") :
        Act (Resolve α) Unit)
      (Job.writing (Journal.log .error logger s!"Final flush of the {what} failed")) :=
      .of_keeps (fun _ => rfl) (fun _ => rfl) fun _ _ => rfl
    dsimp only
    split
    · exact (Alike.throw f).bind fun _ => hlog.bind fun _ => .pure _
    · exact hlog.bind fun _ => .pure _

theorem finish_alike (out : Outside α) {job job' : Resolve α} (hbare : job.bare = job'.bare)
    (hsmall : job.task.progress.processed.natAbs < 2 ^ 255)
    (hsmall' : job'.task.progress.processed.natAbs < 2 ^ 255) :
    ((finish out).go job).1 = ((finish out).go job').1 ∧
      ((finish out).go job).2.bare = ((finish out).go job').2.bare := by
  obtain ⟨logs, hgo⟩ := go_tracking_finish out hsmall
  obtain ⟨logs', hgo'⟩ := go_tracking_finish out hsmall'
  unfold finish
  rw [Act.go_bind, hgo, Act.go_bind, hgo']
  refine (alike_lastFlush (alike_flush rfl) _ _).bind (fun flushed => ?_) _ _ ?_
  · split
    · refine alike_summarize.bind fun _ => .bind_state fun job job' hpart => ?_
      obtain ⟨candidates, total, processed, skipped, logs, queries, stops, rfl⟩ := exists_of_bare hpart
      dsimp only
      split
      · exact alike_log _ _ _ _
      · exact .pure _
    · exact .pure _
  · obtain ⟨candidates, total, processed, skipped, logs, queries, stops, rfl⟩ := exists_of_bare hbare
    rfl

variable [Seconds α]

/-- What is made of a candidate from one visit to another: nothing if it is not found, and else what its
analysis does. -/
inductive Dealt (out : Outside α) (chain : String) (chainId : Int) (address : String)
    (v w : Visit α) : Prop where
  | aside (hnone : ∀ record found, ¬Found out v.job.task.catalog chain chainId address record found)
    (h : w.bare = v.bare)
  | analyzed {record : ContractRecord} {found : List Match}
    (hfound : Found out v.job.task.catalog chain chainId address record found) {l : Line α}
    (hl : l.bare = v.line.bare)
    (h : w.bare = (v.afterAnalysis ((Analysis.resolve out (some chainId) record found).go l)).bare)

theorem Going.go_resolveMatches (h : Going total (1 + n) v.job) (out : Outside α)
    (chain address : String) (chainId : Int) (record : ContractRecord) (found : List Match) :
    ∃ w, (resolveMatches out chain address chainId record found).go v = (.ok (), w) ∧
      Going total n w.job ∧
      w.bare = (v.afterAnalysis ((Analysis.resolve out (some chainId) record found).go v.line)).bare := by
  have hroom := h.room
  have hstopped := (Line.stopped_of_setting
    ((Analysis.resolve_fails out (some chainId) record found).keeps v.line)).1
  obtain ⟨logs, hgo⟩ := Resolve.go_resolveMatches h.bounded (by omega) out chain address
    chainId record found
  refine ⟨_, hgo, ?_, rfl⟩
  rw [Visit.line] at hstopped
  cases ((Analysis.resolve out (some chainId) record found).go ⟨v.client, v.job.journal⟩).1.toOption with
  | some c => exact (h.add 1 false (v.job.task.tally.record c)).journal hstopped
  | none => exact (h.add 1 true v.job.task.tally).journal hstopped

theorem Going.go_resolveCandidate (h : Going total (1 + n) v.job)
    (hundisturbed : ∀ n, out.disturbance n = none) (chain : String) (chainId : Int) (address : String) :
    ∃ w, (resolveCandidate out chain chainId (.str address)).go v = (.ok (), w) ∧
      Going total n w.job ∧ Dealt out chain chainId address v w := by
  have h₁ : Going total (1 + n) (lookedUp chainId address v).job := h.journal rfl
  obtain ⟨x, hx, htaken⟩ := exists_taken chain (go_lookup hundisturbed chainId address v)
  rw [hx]
  cases htaken with
  | skipped _ hnone =>
    obtain ⟨w, hgo, hgoing, hbare⟩ := h₁.go_skipWith _ _
    exact ⟨w, hgo, hgoing, .aside hnone hbare⟩
  | analyzed hfound =>
    obtain ⟨w, hgo, hgoing, hbare⟩ := h₁.go_resolveMatches out chain address chainId _ _
    exact ⟨w, hgo, hgoing, .analyzed hfound (l := (lookedUp chainId address v).line) rfl hbare⟩

omit [Seconds α] in
theorem Found.of_codes {catalog : List Definition} (hcodes : out'.codes = out.codes)
    (h : Found out catalog chain chainId address record found) :
    Found out' catalog chain chainId address record found :=
  ⟨hcodes ▸ h.code, h.detected, h.several⟩

/-- A candidate that is not found makes no difference. -/
theorem Dealt.bare_eq_of_not_found (h : Dealt out chain chainId address v w)
    (hnone : ∀ record found, ¬Found out v.job.task.catalog chain chainId address record found) :
    w.bare = v.bare := by
  cases h with
  | aside _ h => exact h
  | analyzed hfound _ _ => exact absurd hfound (hnone _ _)

theorem Dealt.bare_eq (hakin : Line.Akin Line.bare out out') (hcodes : out'.codes = out.codes)
    (h : Dealt out chain chainId address v w) (h' : Dealt out' chain chainId address v' w')
    (hbare : v.bare = v'.bare) : w.bare = w'.bare := by
  obtain ⟨hjob, hclient, hline⟩ := Visit.exists_of_bare hbare
  obtain ⟨candidates, total, processed, skipped, logs, queries, stops, hv'⟩ := exists_of_bare hjob
  have hcatalog : v'.job.task.catalog = v.job.task.catalog := by rw [hv']
  cases h with
  | aside hnone h =>
    refine h.trans (hbare.trans (h'.bare_eq_of_not_found fun record found hfound => ?_).symm)
    exact hnone record found (hcatalog ▸ hfound.of_codes hcodes.symm)
  | analyzed hfound hl h =>
    rename_i l
    cases h' with
    | aside hnone _ => exact absurd (hcatalog.symm ▸ hfound.of_codes hcodes) (hnone _ _)
    | analyzed hfound' hl' h' =>
      rename_i l'
      obtain ⟨rfl, rfl⟩ := hfound.unique (hcatalog ▸ hfound'.of_codes hcodes.symm)
      obtain ⟨hresult, hend⟩ := hakin.analysis (some chainId) _ _ l l' (hl.trans (hline.trans hl'.symm))
      refine h.trans (Eq.trans ?_ h'.symm)
      obtain ⟨logs, queries, stops, hl⟩ := Line.exists_of_bare hend
      unfold Visit.afterAnalysis
      rw [← hresult, hl, hv']
      cases ((Analysis.resolve out (some chainId) _ _).go l).1 <;> rfl

end Resolve

end ProxyCensus
