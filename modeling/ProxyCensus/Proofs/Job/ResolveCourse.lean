import ProxyCensus.Proofs.Job.CandidateFates
import ProxyCensus.Proofs.Job.ResolveAttempts

/-!
# The course of a resolution

A resolution is followed from one point between two candidates to the next: it passes over a chain, enters
one, deals with a candidate, or leaves a chain. Main statements: a step does not change what becomes of the
work, and while there is room for the candidates ahead the work comes to its end or takes a step.
-/

namespace ProxyCensus.Resolve

open Act (Keeps)

variable {α : Type}

/-- The candidates that are listed, each with the chain under which it is listed. -/
def pairs (listed : List (String × List String)) : List (String × String) :=
  listed.flatMap fun e => e.2.map (e.1, ·)

theorem length_pairs (listed : List (String × List String)) :
    (pairs listed).length = listedCount listed := by
  simp [pairs, listedCount, List.length_flatMap]

/-- The number of a chain that has a node. -/
def numberOf? (nodes : List (String × Json)) (chain : String) : Option Int :=
  if ((Json.lookup? nodes chain).getD .null).isSet then Text.int? chain else none

/-- What is entered in the books of a resolution. -/
inductive Entry (α : Type) where
  /-- A chain is entered. -/
  | chain (name : String)
  /-- A candidate is dealt with. Unless its chain is passed over, its code was looked up, and there are
  the client and the journal with which its analysis would begin. -/
  | candidate (chain address : String) (line : Option (Line α))

def Entry.pair? : Entry α → Option (String × String)
  | .chain _ => none
  | .candidate name address _ => some (name, address)

/-- Where a resolution may stand between two candidates. -/
inductive Point (α : Type) where
  /-- Before the first of some chains. -/
  | between (chains : List (String × List String)) (job : Resolve α)
  /-- Before the first of some addresses of a chain, with other chains behind it. -/
  | within (chain : String) (chainId : Int) (addresses : List String)
    (chains : List (String × List String)) (v : Visit α)

namespace Point

def job : Point α → Resolve α
  | between _ job => job
  | within _ _ _ _ v => v.job

/-- The candidates that have not been dealt with. -/
def ahead : Point α → List (String × String)
  | between chains _ => pairs chains
  | within chain _ addresses chains _ => addresses.map (chain, ·) ++ pairs chains

/-- How many steps there may be ahead. -/
def size : Point α → Nat
  | between chains _ => (chains.map (·.2.length + 2)).sum
  | within _ _ addresses chains _ => addresses.length + 1 + (chains.map (·.2.length + 2)).sum

/-- The candidates that have not been dealt with can still be counted. -/
def HasRoom (total : Nat) (p : Point α) : Prop :=
  p.job.task.progress.Bounded total ∧ p.job.task.progress.processed + p.ahead.length ≤ total

end Point

def standing (job : Resolve α) : ResolveTask α × Bool :=
  (job.task, job.completed)

theorem shouldStop_keeps (out : Outside α) :
    Keeps standing (Job.shouldStop out) :=
  Job.shouldStop_keeps (fun _ _ _ => rfl) out

theorem unwritten_standing : Job.Unwritten (standing : Resolve α → ResolveTask α × Bool) :=
  fun _ _ => rfl

theorem flush_keeps (out : Outside α) : Keeps standing (flush out) :=
  .bind .state fun _ => unwritten_standing.keeps _

theorem keeps_working {β γ : Type} {part : Resolve α → γ} {x : Act (Resolve α) β} (h : Keeps part x) :
    Keeps (fun v : Visit α => part v.job) (Visit.working x) :=
  .on h fun _ _ h => h

theorem keeps_asking {β : Type} (x : Act (Line α) β) :
    Keeps (fun v : Visit α => standing v.job) (Visit.asking x) :=
  fun _ => rfl

theorem Point.HasRoom.of_standing {p : Point α} {job : Resolve α} {total : Nat} (h : p.HasRoom total)
    (hstanding : standing job = standing p.job) :
    job.task.progress.Bounded total ∧ job.task.progress.processed + p.ahead.length ≤ total := by
  have htask : job.task = p.job.task := congrArg Prod.fst hstanding
  rw [htask]
  exact h

variable [Seconds α]

/-- What becomes of the work of a resolution that has visited a chain, with other chains behind it. -/
def afterVisit (out : Outside α) (chains : List (String × List String)) :
    Except Failure Bool × Visit α → Except Failure Unit × Resolve α
  | (.ok true, v) => (.ok (), v.job)
  | (.ok false, v) => Act.go (do flush out; resolveChains out (listing chains)) v.job
  | (.error f, v) => (.error f, v.job)

def Point.resume (out : Outside α) : Point α → Except Failure Unit × Resolve α
  | between chains job => (resolveChains out (listing chains)).go job
  | within chain chainId addresses chains v =>
    afterVisit out chains (((resolveAddresses out chain chainId (addresses.map .str)).andFinally
      (Visit.asking Line.close)).go v)

/-- From one point to the next, with what is entered on the way. -/
inductive Step (out : Outside α) : Point α → List (Entry α) → Point α → Prop where
  | passOver {chain : String} {addresses : List String} {chains : List (String × List String)}
    {job job₁ job₂ : Resolve α} (hgoing : (Job.shouldStop out).go job = (.ok false, job₁))
    (hnumber : numberOf? job₁.task.nodes chain = none)
    (h : (resolveChain out chain (addresses.map .str)).go job₁ = (.ok false, job₂)) :
    Step out (.between ((chain, addresses) :: chains) job)
      (addresses.map fun address => .candidate chain address none) (.between chains job₂)
  | enter {chain : String} {chainId : Int} {addresses : List String}
    {chains : List (String × List String)} {job job₁ job₂ : Resolve α} {client : Client α}
    (hgoing : (Job.shouldStop out).go job = (.ok false, job₁))
    (hnumber : numberOf? job₁.task.nodes chain = some chainId)
    (hnoted : Act.go (do
      log .info s!"Processing chain id {chain}"
      Job.adjust fun task => { task with tally := task.tally.addChain chain }) job₁ = (.ok (), job₂))
    (hclient : Client.ofUrl? ((Json.lookup? job₂.task.nodes chain).getD .null) job₂.task.rounds
      job₂.task.timeout job₂.task.interval = .ok client) :
    Step out (.between ((chain, addresses) :: chains) job) [.chain chain]
      (.within chain chainId addresses chains ⟨client, job₂⟩)
  | candidate {chain address : String} {chainId : Int} {addresses : List String}
    {chains : List (String × List String)} {v v₁ v₂ v₃ : Visit α} {codes : List Json}
    (hgoing : (Visit.working (Job.shouldStop out)).go v = (.ok false, v₁))
    (hlookup : (Visit.working (Job.writing (Corpus.fetchCodes out (.str address) (.int chainId)))).go
      v₁ = (.ok codes, v₂))
    (h : (resolveCandidate out chain chainId (.str address)).go v₁ = (.ok (), v₃)) :
    Step out (.within chain chainId (address :: addresses) chains v)
      [.candidate chain address (some ⟨v₂.client, v₂.job.journal⟩)]
      (.within chain chainId addresses chains v₃)
  | leave {chain : String} {chainId : Int} {chains : List (String × List String)} {v v₁ : Visit α}
    {job : Resolve α} (hclose : (Visit.asking Line.close).go v = (.ok (), v₁))
    (hflush : (flush out).go v₁.job = (.ok (), job)) :
    Step out (.within chain chainId [] chains v) [] (.between chains job)

/-- The points that a resolution of listed candidates comes to, each with what was entered before. -/
inductive Reaches (out : Outside α) (start : Resolve α) (listed : List (String × List String)) :
    List (Entry α) → Point α → Prop where
  | begun {job : Resolve α} (h : (begin out).go start = (.ok (), job)) :
    Reaches out start listed [] (.between listed job)
  | step {entries more : List (Entry α)} {p p' : Point α} (h : Reaches out start listed entries p)
    (hstep : Step out p more p') : Reaches out start listed (entries ++ more) p'

variable {out : Outside α} {more : List (Entry α)} {p p' : Point α} {job job₁ : Resolve α}
  {chain address : String} {chainId : Int}

theorem go_resolveChain_of_unnumbered (out : Outside α) (hnumber : numberOf? job.task.nodes chain = none)
    {total : Nat} (hbounded : job.task.progress.Bounded total) (addresses : List Json)
    (hroom : job.task.progress.processed + addresses.length ≤ total) :
    ∃ logs, (resolveChain out chain addresses).go job = (.ok false, { job with
      task := { job.task with progress := job.task.progress.add addresses.length true }
      journal := { job.journal with logs := logs } }) := by
  have hskip : ∀ level message, ∃ logs, Act.go (do
      log level message
      skip addresses.length
      return false : Act (Resolve α) Bool) job = (.ok false, { job with
        task := { job.task with progress := job.task.progress.add addresses.length true }
        journal := { job.journal with logs := logs } }) := by
    intro level message
    obtain ⟨logs, hlogs⟩ := @Tracked.go_track_bounded α ⟨job.task.progress, { job.journal with
      logs := job.journal.logs.push ⟨level, logger, message⟩ }⟩ total hbounded addresses.length
      hroom true
    refine ⟨logs, ?_⟩
    change Act.go (skip addresses.length >>= fun _ => pure false) _ = _
    unfold skip tracking
    rw [Act.go_bind, Act.go_on, hlogs]
    rfl
  unfold numberOf? at hnumber
  unfold resolveChain
  rw [Act.go_bind, Act.go_state]
  dsimp only
  cases hset : ((Json.lookup? job.task.nodes chain).getD .null).isSet with
  | false => exact hskip _ _
  | true =>
    rw [hset, if_pos rfl] at hnumber
    rw [hnumber]
    exact hskip _ _

theorem go_resolveChain_of_none (out : Outside α) (hnumber : numberOf? job.task.nodes chain = none)
    {total : Nat} (hbounded : job.task.progress.Bounded total) (addresses : List String)
    (hroom : job.task.progress.processed + addresses.length ≤ total) :
    ∃ logs, (resolveChain out chain (addresses.map .str)).go job = (.ok false, { job with
      task := { job.task with progress := job.task.progress.add addresses.length true }
      journal := { job.journal with logs := logs } }) := by
  have hpassed := go_resolveChain_of_unnumbered out hnumber hbounded (addresses.map .str)
  rw [List.length_map] at hpassed
  exact hpassed hroom

theorem go_resolveChains_cons (hgoing : (Job.shouldStop out).go job = (.ok false, job₁))
    (chain : String) (addresses : List String) (chains : List (String × List String)) :
    (resolveChains out (listing ((chain, addresses) :: chains))).go job = Act.go (do
      if ← resolveChain out chain (addresses.map .str) then return
      resolveChains out (listing chains)) job₁ := by
  change Act.go (Job.shouldStop out >>= _) job = _
  rw [Act.go_bind, hgoing]
  rfl

theorem go_visit {url : Json} {client : Client α}
    (hclient : Client.ofUrl? url job.task.rounds job.task.timeout job.task.interval = .ok client)
    {addresses : List Json} {stop : Except Failure Bool} {v : Visit α}
    (hvisit : ((resolveAddresses out chain chainId addresses).andFinally
      (Visit.asking Line.close)).go ⟨client, job⟩ = (stop, v)) :
    (visit out chain chainId url addresses).go job = (stop, v.job) := by
  unfold visit
  rw [Act.go_bind, Act.go_state]
  dsimp only
  rw [hclient, Act.go_bind, Act.go_lift]
  dsimp only
  rw [Act.go_of, hvisit]

/-- A chain that has a node and a number is noted and visited with a client of its own. -/
theorem go_resolveChain_of_some (hnumber : numberOf? job.task.nodes chain = some chainId)
    (hnoted : Act.go (do
      log .info s!"Processing chain id {chain}"
      Job.adjust fun task => { task with tally := task.tally.addChain chain }) job = (.ok (), job₁))
    {client : Client α}
    (hclient : Client.ofUrl? ((Json.lookup? job₁.task.nodes chain).getD .null) job₁.task.rounds
      job₁.task.timeout job₁.task.interval = .ok client) (addresses : List Json)
        {stop : Except Failure Bool}
    {v : Visit α} (hvisit : ((resolveAddresses out chain chainId addresses).andFinally
      (Visit.asking Line.close)).go ⟨client, job₁⟩ = (stop, v)) :
    (resolveChain out chain addresses).go job = Act.go (do
      if ← Act.lift stop then return true
      flush out
      return false) v.job := by
  obtain rfl := (Prod.mk.inj hnoted).2
  unfold numberOf? at hnumber
  cases hset : ((Json.lookup? job.task.nodes chain).getD .null).isSet with
  | false =>
    rw [hset] at hnumber
    cases hnumber
  | true =>
    rw [hset, if_pos rfl] at hnumber
    unfold resolveChain
    rw [Act.go_bind, Act.go_state]
    dsimp only
    rw [hset, hnumber]
    change Act.go (visit out chain chainId _ addresses >>= _) _ = _
    rw [Act.go_bind, go_visit hclient hvisit, Act.go_bind, Act.go_lift]

theorem go_resolveAddresses_cons {v v₁ v₂ : Visit α}
    (hgoing : (Visit.working (Job.shouldStop out)).go v = (.ok false, v₁))
    (h : (resolveCandidate out chain chainId (.str address)).go v₁ = (.ok (), v₂))
    (addresses : List Json) :
    (resolveAddresses out chain chainId (.str address :: addresses)).go v =
      (resolveAddresses out chain chainId addresses).go v₂ := by
  change Act.go (Visit.working (Job.shouldStop out) >>= _) v = _
  rw [Act.go_bind, hgoing]
  change Act.go (resolveCandidate out chain chainId (.str address) >>= _) v₁ = _
  rw [Act.go_bind, h]

/-- What becomes of the work at a point is what becomes of it at the next one. -/
theorem Step.resume_eq (h : Step out p more p') : p.resume out = p'.resume out := by
  cases h with
  | passOver hgoing hnumber hgo =>
    change (resolveChains out (listing _)).go _ = _
    rw [go_resolveChains_cons hgoing, Act.go_bind, hgo]
    rfl
  | @enter chain chainId addresses chains job job₁ job₂ client hgoing hnumber hnoted hclient =>
    cases hvisit : ((resolveAddresses out chain chainId (addresses.map .str)).andFinally
      (Visit.asking Line.close)).go ⟨client, job₂⟩ with
    | mk stop v =>
    change (resolveChains out (listing _)).go _ = afterVisit out chains _
    rw [hvisit, go_resolveChains_cons hgoing, Act.go_bind,
      go_resolveChain_of_some hnumber hnoted hclient _ hvisit]
    -- A visit fails, or it is through with its addresses, or it was told to stop.
    rcases stop with _ | _ | _
    · rfl
    · have hflush : Act.go (do
          if ← Act.lift (.ok false) then return true
          flush out
          return false) v.job = Act.go (do flush out; return false) v.job := rfl
      rw [hflush, afterVisit, Act.go_bind, Act.go_bind]
      rcases (flush out).go v.job with ⟨_ | _, job⟩ <;> rfl
    · rfl
  | @candidate chain address chainId addresses chains v v₁ v₂ v₃ codes hgoing hlookup hgo =>
    change afterVisit out chains _ = afterVisit out chains _
    unfold Act.andFinally
    rw [List.map_cons, Act.go_of, Act.go_of, go_resolveAddresses_cons hgoing hgo]
  | @leave chain chainId chains v v₁ job hclose hflush =>
    have hvisit : ((resolveAddresses out chain chainId (([] : List String).map .str)).andFinally
      (Visit.asking Line.close)).go v = (.ok false, v₁) := Act.go_andFinally rfl hclose
    unfold Point.resume
    dsimp only
    rw [hvisit, afterVisit, Act.go_bind, hflush]

theorem resume_of_left {addresses : List String} {v v₁ : Visit α} {stop : Except Failure Bool}
    (h : (resolveAddresses out chain chainId (addresses.map .str)).go v = (stop, v₁))
    (chains : List (String × List String)) :
    ∃ l : Line α,
      (Visit.asking Line.close).go v₁ =
        (.ok (), ⟨l.client, { v₁.job with journal := l.journal }⟩) ∧
      (Point.within chain chainId addresses chains v).resume out =
        afterVisit out chains (stop, ⟨l.client, { v₁.job with journal := l.journal }⟩) := by
  obtain ⟨l, hclose, -⟩ := go_close v₁
  exact ⟨l, hclose, congrArg (afterVisit out chains) (Act.go_andFinally h hclose)⟩

theorem isSet_of_numberOf? {nodes : List (String × Json)} (h : numberOf? nodes chain = some chainId) :
    ((Json.lookup? nodes chain).getD .null).isSet = true := by
  unfold numberOf? at h
  split at h
  · assumption
  · cases h

theorem go_resolveAddresses_of_stop {v v₁ : Visit α}
    (hstop : (Visit.working (Job.shouldStop out)).go v = (.ok true, v₁)) (addresses : List Json)
    (address : Json) :
    (resolveAddresses out chain chainId (address :: addresses)).go v = (.ok true, v₁) := by
  change Act.go (Visit.working (Job.shouldStop out) >>= _) v = _
  rw [Act.go_bind, hstop]
  rfl

theorem go_resolveAddresses_of_lookup {v v₁ v₂ : Visit α} {f : Failure}
    (hgoing : (Visit.working (Job.shouldStop out)).go v = (.ok false, v₁))
    (hlookup : (Visit.working (Job.writing (Corpus.fetchCodes out (.str address) (.int chainId)))).go
      v₁ = (.error f, v₂)) (addresses : List Json) :
    (resolveAddresses out chain chainId (.str address :: addresses)).go v = (.error f, v₂) := by
  change Act.go (Visit.working (Job.shouldStop out) >>= _) v = _
  rw [Act.go_bind, hgoing]
  change Act.go (resolveCandidate out chain chainId (.str address) >>= _) v₁ = _
  unfold resolveCandidate
  rw [Act.go_bind, Act.go_bind, hlookup]

/-- The work comes to its end without dealing with another candidate; and there is none ahead if it
returns and was not told to stop. -/
def Point.Rests (out : Outside α) (p : Point α) : Prop :=
  ∃ r last, p.resume out = (r, last) ∧ standing last = standing p.job ∧
    (r = .ok () → last.interrupted = false → p.ahead = [])

/-- When the work on a chain fails, or is told to stop, it comes to its end. -/
theorem rests_of_left {addresses : List String} {chains : List (String × List String)} {v v₁ : Visit α}
    {stop : Except Failure Bool}
    (hleft : (resolveAddresses out chain chainId (addresses.map .str)).go v = (stop, v₁))
    (hstop : stop = .ok true ∧ v₁.job.interrupted = true ∨ ∃ f, stop = .error f)
    (hkept : standing v₁.job = standing v.job) :
    (Point.within chain chainId addresses chains v).Rests out := by
  obtain ⟨l, -, hresume⟩ := resume_of_left hleft chains
  rcases hstop with ⟨rfl, hinterrupted⟩ | ⟨f, rfl⟩
  · refine ⟨.ok (), { v₁.job with journal := l.journal }, hresume, hkept, fun _ hgoing => ?_⟩
    exact absurd (hinterrupted.symm.trans hgoing) (by decide)
  · exact ⟨.error f, { v₁.job with journal := l.journal }, hresume, hkept, fun h => (by cases h)⟩

theorem advances_between {chains : List (String × List String)} {total : Nat}
    (h : (Point.between chains job).HasRoom total) :
    (Point.between chains job).Rests out ∨
      ∃ more p', Step out (.between chains job) more p' ∧ p'.size < (Point.between chains job).size := by
  cases chains with
  | nil => exact .inl ⟨.ok (), job, rfl, rfl, fun _ _ => rfl⟩
  | cons entry rest =>
    obtain ⟨chain, addresses⟩ := entry
    obtain ⟨stop, job₁, hgo, hstop⟩ := Job.exists_shouldStop out job
    have hkept := (shouldStop_keeps out).of_go hgo
    cases stop with
    | true =>
      refine .inl ⟨.ok (), job₁, ?_, hkept, fun _ hgoing => ?_⟩
      · change Act.go (Job.shouldStop out >>= _) job = _
        rw [Act.go_bind, hgo]
        rfl
      · rw [hstop rfl] at hgoing
        cases hgoing
    | false =>
      obtain ⟨hbounded, hroom⟩ := h.of_standing hkept
      change job₁.task.progress.processed + ((addresses.map (chain, ·) ++ pairs rest).length : Nat) ≤
        total at hroom
      rw [List.length_append, List.length_map] at hroom
      cases hnumber : numberOf? job₁.task.nodes chain with
      | none =>
        obtain ⟨logs, hpassed⟩ :=
          go_resolveChain_of_none out hnumber hbounded addresses (by omega)
        exact .inr ⟨_, _, .passOver hgo hnumber hpassed, by simp [Point.size]⟩
      | some chainId =>
        obtain ⟨client, hclient⟩ := Client.exists_ofUrl? (isSet_of_numberOf? hnumber) job₁.task.rounds
          job₁.task.timeout job₁.task.interval
        exact .inr ⟨_, _, .enter hgo hnumber rfl hclient, by simp [Point.size]⟩

theorem advances_within {addresses : List String} {chains : List (String × List String)} {v : Visit α}
    {total : Nat} (h : (Point.within chain chainId addresses chains v).HasRoom total) :
    (Point.within chain chainId addresses chains v).Rests out ∨
      ∃ more p', Step out (.within chain chainId addresses chains v) more p' ∧
        p'.size < (Point.within chain chainId addresses chains v).size := by
  cases addresses with
  | nil =>
    have hleft : (resolveAddresses out chain chainId (([] : List String).map .str)).go v =
        (.ok false, v) := rfl
    obtain ⟨l, hclose, hresume⟩ := resume_of_left hleft chains
    cases hflush : (flush out).go { v.job with journal := l.journal } with
    | mk r last =>
    cases r with
    | ok _ => exact .inr ⟨_, _, .leave hclose hflush, by simp [Point.size]⟩
    | error f =>
      refine .inl ⟨.error f, last, ?_, ?_, fun h => (by cases h)⟩
      · rw [hresume, afterVisit, Act.go_bind, hflush]
      · exact ((flush_keeps out).of_go hflush).trans rfl
  | cons address rest =>
    obtain ⟨stop, job₁, hgo, hstop⟩ := Job.exists_shouldStop out v.job
    have hasked : (Visit.working (Job.shouldStop out)).go v = (.ok stop, { v with job := job₁ }) :=
      congrArg (fun p : Except Failure Bool × Resolve α => (p.1, { v with job := p.2 })) hgo
    have hkept := (shouldStop_keeps out).of_go hgo
    cases stop with
    | true =>
      exact .inl (rests_of_left (go_resolveAddresses_of_stop hasked _ _) (.inl ⟨rfl, hstop rfl⟩) hkept)
    | false =>
      cases hlookup : (Visit.working (Job.writing
          (Corpus.fetchCodes out (.str address) (.int chainId)))).go { v with job := job₁ } with
      | mk codes v₁ =>
      have hkept₁ := (keeps_working (unwritten_standing.keeps _)).of_go hlookup
      -- Of what is done about a candidate only the lookup can fail.
      cases codes with
      | error f =>
        exact .inl (rests_of_left (go_resolveAddresses_of_lookup hasked hlookup _) (.inr ⟨f, rfl⟩)
          (hkept₁.trans hkept))
      | ok codes =>
        obtain ⟨hbounded, hroom⟩ := h.of_standing (hkept₁.trans hkept)
        change v₁.job.task.progress.processed +
          (((chain, address) :: (rest.map (chain, ·) ++ pairs chains)).length : Nat) ≤ total at hroom
        rw [List.length_cons] at hroom
        obtain ⟨x, hcandidate, fate, v₂, hx, -⟩ := exists_disposes chain hlookup hbounded (by omega)
        exact .inr ⟨_, _, .candidate hasked hlookup (hcandidate.trans hx), by simp [Point.size]⟩

/-- While there is room, the work comes to its end at a point, or there is a step to one with fewer steps
ahead. -/
theorem Point.HasRoom.advances {total : Nat} (h : p.HasRoom total) :
    p.Rests out ∨ ∃ more p', Step out p more p' ∧ p'.size < p.size := by
  cases p with
  | between chains job => exact advances_between h
  | within chain chainId addresses chains v => exact advances_within h

/-- A resolution comes to a point that ends it if from every other one that keeps `P` a step leads to one
that keeps it too and has fewer steps ahead. -/
theorem Reaches.exists_of_advances {start : Resolve α} {listed : List (String × List String)}
    {entries : List (Entry α)} {P : List (Entry α) → Point α → Prop} {End : Point α → Prop}
    (hadvances : ∀ {entries p}, P entries p → End p ∨
      ∃ more p', Step out p more p' ∧ P (entries ++ more) p' ∧ p'.size < p.size)
    (h : Reaches out start listed entries p) (hinv : P entries p) :
    ∃ entries p, Reaches out start listed entries p ∧ P entries p ∧ End p := by
  induction hsize : p.size using Nat.strong_induction_on generalizing entries p with
  | _ n ih =>
    rcases hadvances hinv with hend | ⟨more, p', hstep, hinv', hless⟩
    · exact ⟨entries, p, h, hinv, hend⟩
    · exact ih p'.size (hsize ▸ hless) (h.step hstep) hinv' rfl

end ProxyCensus.Resolve
