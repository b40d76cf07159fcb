import ProxyCensus.Proofs.Job.CandidateFates
import ProxyCensus.Proofs.Job.ResolveChains
import ProxyCensus.Proofs.Job.Surfaced

/-!
# The attempts of a resolution

What a resolution does that may fail, whatever comes in its way and whatever the nodes reply: it asks for
codes and writes its files after each chain. Main statement: it surfaces the first failure of these, and
whatever it writes is what was counted on a whole number of candidates.
-/

namespace ProxyCensus.Resolve

open Job (Alike Closes Flushes Surfaces flushing)
open Snapshot (PlainFamily)

inductive Stop where
  | chain (name : String)
  | candidate (chain : String) (chainId : Int) (address : String)

/-- The candidates of a chain that has a node and a number, and the chain before them. -/
def stopsOf (nodes : List (String × Json)) (chain : String) (addresses : List String) : List Stop :=
  if ((Json.lookup? nodes chain).getD .null).isSet then
    match Text.int? chain with
    | some chainId => .chain chain :: addresses.map (.candidate chain chainId)
    | none => []
  else []

def listing (listed : List (String × List String)) : List (String × Json) :=
  listed.map fun e => (e.1, .arr (e.2.map .str))

def listedCount (listed : List (String × List String)) : Nat :=
  (listed.map (·.2.length)).sum

def nodesAt (urls : List (String × String)) : List (String × Json) :=
  urls.map fun e => (e.1, .str e.2)

def planOf (nodes : List (String × Json)) (listed : List (String × List String)) : List Stop :=
  listed.flatMap fun e => stopsOf nodes e.1 e.2

theorem lookup?_nodesAt (urls : List (String × String)) (chain : String) {url : Json}
    (h : Json.lookup? (nodesAt urls) chain = some url) : ∃ s, url = .str s := by
  unfold Json.lookup? at h
  obtain ⟨e, he, rfl⟩ := Option.map_eq_some_iff.1 h
  obtain ⟨node, -, rfl⟩ := List.mem_map.1 (List.mem_of_find?_eq_some he)
  exact ⟨node.2, rfl⟩

theorem totalListed_listing (listed : List (String × List String)) :
    totalListed (listing listed) = .ok (listedCount listed) := by
  induction listed with
  | nil => rfl
  | cons e rest ih =>
    unfold listing listedCount at *
    simp [totalListed, listed?, ih, Except.map]

variable {α : Type} {out : Outside α}

theorem outward_of_setting {l l' : Line α} (h : Line.setting l' = Line.setting l) :
    l'.journal.outward = l.journal.outward := by
  simp only [Line.setting, Line.still, Prod.mk.injEq] at h
  simp [Journal.outward, h]

def artifacts (task : ResolveTask α) : Except Failure (List (String × Document)) :=
  .ok task.tally.artifacts

theorem plainFamily_fileNames : PlainFamily ResolutionTally.fileNames := by decide

theorem go_flush (job : Resolve α) : Flushes out job.task.folder artifacts (flush out) job :=
  rfl

theorem go_summarize (job : Resolve α) : ∃ logs, summarize.go job =
    (.ok (), { job with journal := { job.journal with logs := logs } }) :=
  ⟨_, rfl⟩

theorem closes {job : Resolve α} (hprocessed : job.task.progress.processed.natAbs < 2 ^ 255) :
    Closes out job.task.folder artifacts (Resolve.finish out) job := by
  obtain ⟨job₁, htrack, halike, hfolder⟩ : ∃ job₁ : Resolve α,
      (tracking (Tracked.finish out)).go job = (.ok (), job₁) ∧ Alike artifacts job job₁ ∧
        job₁.task.folder = job.task.folder := by
    obtain ⟨logs, hend⟩ := go_tracking_finish out hprocessed
    exact ⟨_, hend, ⟨rfl, rfl, rfl⟩, rfl⟩
  have hflush : Flushes out job₁.task.folder artifacts (Resolve.flush out) job₁ := go_flush job₁
  rw [hfolder] at hflush
  refine Closes.of_flushes logger "candidate resolution" htrack halike hflush fun docs job₂ _ => ?_
  obtain ⟨logs, hsummary⟩ := go_summarize job₂
  rw [Act.go_bind, hsummary]
  dsimp only
  rw [Act.go_bind, Act.go_state]
  dsimp only
  split
  · exact ⟨_, rfl, rfl, rfl, rfl⟩
  · exact ⟨_, rfl, rfl, rfl, rfl⟩

variable [Seconds α] {start job : Resolve α} {plan ahead : List Stop} {total left : Nat}

/-- What an analysis may say of a candidate. -/
def Outcome (out : Outside α) (catalog : List Definition) (chain : String) (chainId : Int)
    (address : String) (c : Classification) : Prop :=
  ∃ code record found, out.codes chainId (Corpus.addressKey address) = [code] ∧
    search catalog chain (.str address) code = .ok (record, found) ∧ 2 ≤ found.length ∧
    ∃ l : Line α, ((Analysis.resolve out (some chainId) record found).go l).1 = .ok c

/-- What may have been counted after some stops: every chain is noted, and every candidate is counted as
an analysis says or skipped. -/
inductive Tallied (out : Outside α) (catalog : List Definition) : List Stop → ResolutionTally → Prop
  | nil : Tallied out catalog [] {}
  | chain {stops : List Stop} {t : ResolutionTally} (h : Tallied out catalog stops t) (name : String) :
      Tallied out catalog (stops ++ [.chain name]) (t.addChain name)
  | skipped {stops : List Stop} {t : ResolutionTally} (h : Tallied out catalog stops t)
      (chain : String) (chainId : Int) (address : String) :
      Tallied out catalog (stops ++ [.candidate chain chainId address]) t
  | counted {stops : List Stop} {t : ResolutionTally} (h : Tallied out catalog stops t)
      {chain : String} {chainId : Int} {address : String} {c : Classification}
      (hc : Outcome out catalog chain chainId address c) :
      Tallied out catalog (stops ++ [.candidate chain chainId address]) (t.record c)

/-- The files of what was counted on the first stops of a plan. -/
def WholeStops (out : Outside α) (catalog : List Definition) (plan : List Stop)
    (docs : Except Failure (List (String × Document))) : Prop :=
  ∃ stops t, stops <+: plan ∧ Tallied out catalog stops t ∧ docs = .ok t.artifacts

/-- Since `start` a resolution has made the stops of a plan but for those ahead, whatever came in its
way, and at most so many contracts are left. -/
structure Underway (out : Outside α) (start : Resolve α) (plan : List Stop) (total : Nat)
    (ahead : List Stop) (left : Nat) (job : Resolve α) : Prop where
  task : job.task = { start.task with tally := job.task.tally, progress := job.task.progress }
  tallied : ∃ stops, stops ++ ahead = plan ∧ Tallied out start.task.catalog stops job.task.tally
  bounded : job.task.progress.Bounded total
  room : job.task.progress.processed + left ≤ total
  completed : job.completed = false

/-- Some stops were made, and the resolution was not told to stop. -/
def Failed (out : Outside α) (start : Resolve α) (plan : List Stop) (total : Nat) (job : Resolve α) :
    Prop :=
  (∃ ahead left, Underway out start plan total ahead left job) ∧ job.interrupted = false

/-- A computation of a resolution makes attempts until one of them fails, and comes to a whole number of
candidates. -/
abbrev Works {β : Type} (out : Outside α) (start : Resolve α) (plan : List Stop) (total : Nat)
    (x : Act (Resolve α) β) (job : Resolve α) (Done : β → Resolve α → Prop) : Prop :=
  Tries out start.task.folder (WholeStops out start.task.catalog plan) Job.journal
    (Failed out start plan total) x job Done

abbrev WorksWithClient {β : Type} (out : Outside α) (start : Resolve α) (plan : List Stop)
    (total : Nat) (x : Act (Visit α) β) (v : Visit α) (Done : β → Visit α → Prop) : Prop :=
  Tries out start.task.folder (WholeStops out start.task.catalog plan) (fun v : Visit α => v.job.journal)
    (fun v => Failed out start plan total v.job) x v Done

def Passed (out : Outside α) (start : Resolve α) (plan : List Stop) (total : Nat) (ahead : List Stop)
    (left : Nat) : Bool → Resolve α → Prop
  | true, job => ∃ ahead left, Underway out start plan total ahead left job
  | false, job => Underway out start plan total ahead left job ∧ job.interrupted = false

theorem Underway.whole (h : Underway out start plan total ahead left job) :
    WholeStops out start.task.catalog plan (artifacts job.task) := by
  obtain ⟨stops, hstops, htallied⟩ := h.tallied
  exact ⟨stops, _, ⟨ahead, hstops⟩, htallied, rfl⟩

theorem Underway.journal (h : Underway out start plan total ahead left job) (j : Journal α) :
    Underway out start plan total ahead left { job with journal := j } :=
  { h with }

theorem Passed.journal {stop : Bool} (h : Passed out start plan total ahead left stop job)
    (j : Journal α) : Passed out start plan total ahead left stop { job with journal := j } := by
  cases stop with
  | true =>
    obtain ⟨ahead, left, h⟩ := h
    exact ⟨ahead, left, h.journal j⟩
  | false => exact ⟨h.1.journal j, h.2⟩

theorem Failed.journal (h : Failed out start plan total job) (j : Journal α) :
    Failed out start plan total { job with journal := j } := by
  obtain ⟨⟨ahead, left, h⟩, hgoing⟩ := h
  exact ⟨⟨ahead, left, h.journal j⟩, hgoing⟩

theorem Underway.chain {name : String}
    (h : Underway out start plan total (.chain name :: ahead) left job) :
    Underway out start plan total ahead left
      { job with task := { job.task with tally := job.task.tally.addChain name } } := by
  obtain ⟨stops, hstops, htallied⟩ := h.tallied
  refine { h with task := ?_, tallied := ⟨stops ++ [.chain name], ?_, htallied.chain name⟩ }
  · rw [h.task]
  · rw [List.append_assoc]
    exact hstops

theorem Underway.track {count : Nat} (h : Underway out start plan total ahead (count + left) job)
    (skipped : Bool) :
    ∃ job', (tracking (Tracked.track count skipped)).go job = (.ok (), job') ∧
      Underway out start plan total ahead left job' ∧
      job'.journal.outward = job.journal.outward ∧ job'.interrupted = job.interrupted := by
  have hroom := h.room
  obtain ⟨logs, hlogs⟩ := @Tracked.go_track_bounded α ⟨job.task.progress, job.journal⟩
    total h.bounded
    count (by dsimp only; omega) skipped
  refine ⟨{ job with
      task := { job.task with progress := job.task.progress.add count skipped }
      journal := { job.journal with logs := logs } }, ?_,
    { h with task := ?_, bounded := ?_, room := ?_ }, rfl, rfl⟩
  · unfold tracking
    rw [Act.go_on, hlogs]
  · rw [h.task]
  · exact h.bounded.add (by omega) skipped
  · change job.task.progress.processed + count + left ≤ total
    omega

/-- A computation on a candidate returns without an attempt, and the candidate is counted or skipped. -/
def Settles (out : Outside α) (start : Resolve α) (plan : List Stop) (total : Nat) (ahead : List Stop)
    (left : Nat) (x : Act (Visit α) Unit) (v : Visit α) : Prop :=
  ∃ v', x.go v = (.ok (), v') ∧ Underway out start plan total ahead left v'.job ∧
    v'.job.journal.outward = v.job.journal.outward ∧ v'.job.interrupted = v.job.interrupted

theorem Settles.tries {x : Act (Visit α) Unit} {v : Visit α}
    (h : Settles out start plan total ahead left x v) (hgoing : v.job.interrupted = false) :
    WorksWithClient out start plan total x v fun _ v' =>
      Underway out start plan total ahead left v'.job ∧ v'.job.interrupted = false := by
  obtain ⟨v', hgo, h', hquiet, hgoing'⟩ := h
  exact .of_go hgo hquiet ⟨h', hgoing'.trans hgoing⟩

/-- When what becomes of the next candidate is settled, the resolution is underway with those behind it. -/
theorem Underway.settles {v : Visit α} {chain address : String} {chainId : Int}
    (h : Underway out start plan total (.candidate chain chainId address :: ahead) (1 + left) v.job)
    {x : Act (Visit α) Unit} (hx : Disposes out chain chainId address x v) :
    Settles out start plan total ahead left x v := by
  obtain ⟨fate, v', hgo, hfate, hjob, hsetting⟩ := hx
  obtain ⟨stops, hstops, htallied⟩ := h.tallied
  have hplan : (stops ++ [.candidate chain chainId address]) ++ ahead = plan := by
    rw [List.append_assoc]
    exact hstops
  have hroom := h.room
  have hone : v.job.task.progress.processed + (1 : Nat) ≤ total := by omega
  have hleft : v.job.task.progress.processed + 1 + left ≤ total := by omega
  refine ⟨v', hgo, ?_, outward_of_setting hsetting, by rw [hjob]⟩
  rw [hjob]
  have hcatalog : v.job.task.catalog = start.task.catalog := by rw [h.task]
  rw [hcatalog] at hfate
  cases fate with
  | some c =>
    obtain ⟨record, found, hfound, hasked⟩ := (hfate c).1 rfl
    obtain ⟨code, hcode, -⟩ := hfound.code
    have hc : Outcome out start.task.catalog chain chainId address c :=
      ⟨code, record, found, hcode, hfound.search hcode, hfound.several, _, hasked⟩
    refine ⟨?_, ⟨_, hplan, htallied.counted hc⟩, h.bounded.add hone false, hleft, h.completed⟩
    change settled v.job.task (some c) = _
    rw [settled, h.task]
  | none =>
    refine ⟨?_, ⟨_, hplan, htallied.skipped chain chainId address⟩, h.bounded.add hone true, hleft,
      h.completed⟩
    change settled v.job.task none = _
    rw [settled, h.task]

/-- The code of a candidate is asked for, and it is counted or skipped. -/
theorem Underway.resolveCandidate {v : Visit α} {chain address : String} {chainId : Int}
    (h : Underway out start plan total (.candidate chain chainId address :: ahead) (1 + left) v.job)
    (hgoing : v.job.interrupted = false) :
    WorksWithClient out start plan total (Resolve.resolveCandidate out chain chainId (.str address)) v
      fun _ v' => Underway out start plan total ahead left v'.job ∧ v'.job.interrupted = false := by
  unfold Resolve.resolveCandidate
  have hfetch : WorksWithClient out start plan total
      (Visit.working (Job.writing (Corpus.fetchCodes out (.str address) (.int chainId)))) v
      fun codes v' => codes = out.codes chainId (Corpus.addressKey address) ∧
        Underway out start plan total (.candidate chain chainId address :: ahead) (1 + left) v'.job ∧
        v'.job.interrupted = false := by
    have hgo : (Visit.working (Job.writing
          (Corpus.fetchCodes out (.str address) (.int chainId)))).go v = _ :=
      congrArg (fun p : Except Failure (List Json) × Journal α =>
        (p.1, { v with job := { v.job with journal := p.2 } }))
        (go_fetchCodes out address chainId v.job.journal)
    have hjob := fun j : Journal α => h.journal j
    refine .attempt (a := .query (.code (Corpus.addressKey address) chainId)) ?_ ?_
      (fun docs hdocs => by cases hdocs) (fun codes hcodes => ?_) ?_
    · rw [hgo]
      change Except.map _ (Except.map _ _) = ((Corpus.query out _).go v.job.journal).1
      cases ((Corpus.query out (.code (Corpus.addressKey address) chainId)).go v.job.journal).1 <;> rfl
    · rw [hgo]
      rfl
    · refine ⟨codes_of_lookup (Prod.ext hcodes rfl), ?_⟩
      rw [hgo]
      exact ⟨hjob _, hgoing⟩
    · rw [hgo]
      exact ⟨⟨_, _, hjob _⟩, hgoing⟩
  refine hfetch.bind fun codes v₁ ⟨hcodes, h₁, hgoing₁⟩ => ?_
  have hroom : v₁.job.task.progress.processed < total := by
    have := h₁.room
    omega
  have hskipped : codes.length ≠ 1 → ∀ message,
      Disposes out chain chainId address (Visit.working (skipWith .warning message)) v₁ := by
    intro hlength message
    refine Taken.disposes (.skipped (.inl rfl) fun record found => ?_) h₁.bounded hroom
    exact not_found_of_codes (hcodes ▸ hlength)
  rcases codes with _ | ⟨code, _ | ⟨second, rest⟩⟩
  · exact (h₁.settles (hskipped Nat.zero_ne_one _)).tries hgoing₁
  · exact (h₁.settles (disposes_resolveCode hcodes.symm h₁.bounded hroom)).tries hgoing₁
  · exact (h₁.settles (hskipped (by simp) _)).tries hgoing₁

/-- The candidates of a chain are worked on, all of them unless the resolution is told to stop. -/
theorem Underway.resolveAddresses {chain : String} {chainId : Int} (addresses : List String) :
    ∀ {left : Nat} {v : Visit α},
      Underway out start plan total (addresses.map (.candidate chain chainId) ++ ahead)
        (addresses.length + left) v.job → v.job.interrupted = false →
      WorksWithClient out start plan total
        (Resolve.resolveAddresses out chain chainId (addresses.map .str)) v
        fun stop v' => Passed out start plan total ahead left stop v'.job := by
  -- What is ahead of the chain stays the same while the candidates before it are worked off.
  induction addresses with
  | nil => exact fun h hgoing => .pure ⟨by simpa using h, hgoing⟩
  | cons address rest ih =>
    intro left v h hgoing
    rw [List.map_cons, Resolve.resolveAddresses]
    have hasked : (Visit.working (Job.shouldStop out)).go v = _ :=
      congrArg (fun p : Except Failure Bool × Resolve α => (p.1, { v with job := p.2 }))
        (Job.go_shouldStop out hgoing)
    refine .after_go hasked rfl ?_
    cases out.stop v.job.journal.stops || v.job.journal.stopped with
    | true => exact .pure ⟨_, _, { h with }⟩
    | false =>
      have hnext : Underway out start plan total
          (.candidate chain chainId address :: (rest.map (.candidate chain chainId) ++ ahead))
          (1 + (rest.length + left)) { v.job with
            interrupted := false
            journal := { v.job.journal with stops := v.job.journal.stops + 1 } } := by
        rw [List.length_cons] at h
        exact { h with room := by have := h.room; dsimp only; omega }
      refine (hnext.resolveCandidate (v := ⟨v.client, _⟩) rfl).bind fun _ v₁ hresolved => ?_
      exact ih hresolved.1 hresolved.2

theorem Underway.visit {chain : String} {chainId : Int} (addresses : List String) {url : String}
    (h : Underway out start plan total (addresses.map (.candidate chain chainId) ++ ahead)
      (addresses.length + left) job) (hgoing : job.interrupted = false) :
    Works out start plan total
      (Resolve.visit out chain chainId (.str url) (addresses.map .str)) job
      (Passed out start plan total ahead left) := by
  obtain ⟨client, hclient⟩ : ∃ client : Client α, (Act.lift (Client.ofUrl? (.str url) job.task.rounds
      job.task.timeout job.task.interval)).go job = (.ok client, job) := ⟨_, rfl⟩
  have hwork := Underway.resolveAddresses addresses (v := ⟨client, job⟩) h hgoing
  have hclosed : ∀ v : Visit α, ∃ v', (Visit.asking Line.close).go v = (.ok (), v') ∧
      v'.job.journal.outward = v.job.journal.outward ∧
      (∀ stop, Passed out start plan total ahead left stop v.job →
        Passed out start plan total ahead left stop v'.job) ∧
      (Failed out start plan total v.job → Failed out start plan total v'.job) := by
    intro v
    obtain ⟨l, hgo, hkept⟩ := go_close v
    exact ⟨_, hgo, outward_of_setting hkept, fun stop hv => hv.journal l.journal,
      fun hv => hv.journal l.journal⟩
  obtain ⟨tries, htries⟩ := hwork.andFinally hclosed
  unfold Resolve.visit
  exact .after_go rfl rfl (.after_go hclient rfl ⟨tries, htries⟩)

theorem Underway.flush (h : Underway out start plan total ahead left job)
    (hgoing : job.interrupted = false) :
    Works out start plan total (Resolve.flush out) job
      fun _ job' => Underway out start plan total ahead left job' ∧ job'.interrupted = false := by
  have hfolder : job.task.folder = start.task.folder := by rw [h.task]
  have hgo : Flushes out job.task.folder artifacts (Resolve.flush out) job := go_flush job
  unfold Flushes at hgo
  rw [hfolder] at hgo
  refine .attempt (a := flushing artifacts job) ?_ ?_
    (fun docs hdocs => Attempt.flush.inj hdocs ▸ h.whole) (fun _ _ => ?_) ?_
  · rw [hgo, map_unit]
  · rw [hgo]
  · rw [hgo]
    exact ⟨h.journal _, hgoing⟩
  · rw [hgo]
    exact ⟨⟨ahead, left, h.journal _⟩, hgoing⟩

theorem Underway.skip {count : Nat} (h : Underway out start plan total ahead (count + left) job)
    (hgoing : job.interrupted = false) (level : Level) (message : String) :
    Works out start plan total (do
        Resolve.log level message
        Resolve.skip count
        return false) job (Passed out start plan total ahead left) := by
  have hlogged := h.journal { job.journal with
    logs := job.journal.logs.push ⟨level, logger, message⟩ }
  obtain ⟨job', hgo, h', hquiet, hgoing'⟩ := hlogged.track true
  exact .after_go rfl rfl (.after_go hgo hquiet (.pure ⟨h', hgoing'.trans hgoing⟩))

/-- A chain is worked on, and the files are written, unless the resolution is told to stop. -/
theorem Underway.resolveChain {chain : String} (addresses : List String)
    (hnodes : ∀ url, Json.lookup? start.task.nodes chain = some url → ∃ s, url = .str s)
    (h : Underway out start plan total (stopsOf start.task.nodes chain addresses ++ ahead)
      (addresses.length + left) job) (hgoing : job.interrupted = false) :
    Works out start plan total (Resolve.resolveChain out chain (addresses.map .str)) job
      (Passed out start plan total ahead left) := by
  have hsame : job.task.nodes = start.task.nodes := by rw [h.task]
  unfold Resolve.resolveChain
  refine .after_go rfl rfl ?_
  rw [hsame, List.length_map]
  unfold stopsOf at h
  dsimp only
  cases hset : ((Json.lookup? start.task.nodes chain).getD .null).isSet with
  | false =>
    rw [hset, if_neg Bool.false_ne_true, List.nil_append] at h
    exact h.skip hgoing _ _
  | true =>
    rw [hset, if_pos rfl] at h
    cases hnumber : Text.int? chain with
    | none =>
      rw [hnumber] at h
      exact h.skip hgoing _ _
    | some chainId =>
      rw [hnumber] at h
      obtain ⟨url, hurl⟩ : ∃ url, (Json.lookup? start.task.nodes chain).getD .null = .str url := by
        cases hlookup : Json.lookup? start.task.nodes chain with
        | none =>
          rw [hlookup] at hset
          cases hset
        | some v => exact hnodes v hlookup
      rw [hurl]
      have hchain := (h.journal { job.journal with
        logs := job.journal.logs.push ⟨.info, logger, s!"Processing chain id {chain}"⟩ }).chain
      refine .after_go rfl rfl (.after_go rfl rfl ?_)
      refine (hchain.visit addresses hgoing).bind fun stop job₁ h₁ => ?_
      cases stop with
      | true => exact .pure h₁
      | false => exact (h₁.1.flush h₁.2).bind fun _ job₂ h₂ => .pure h₂

theorem Underway.resolveChains (listed : List (String × List String))
    (hnodes : ∀ chain url, Json.lookup? start.task.nodes chain = some url → ∃ s, url = .str s) :
    ∀ {left : Nat} {job : Resolve α},
      Underway out start plan total (planOf start.task.nodes listed ++ ahead)
        (listedCount listed + left) job → job.interrupted = false →
      Works out start plan total (Resolve.resolveChains out (listing listed)) job
        fun _ job' => ∃ ahead left, Underway out start plan total ahead left job' := by
  induction listed with
  | nil => exact fun h _ => .pure ⟨_, _, h⟩
  | cons e rest ih =>
    intro left job h hgoing
    unfold listing
    rw [List.map_cons, Resolve.resolveChains]
    refine .after_go (Job.go_shouldStop out hgoing) rfl ?_
    cases out.stop job.journal.stops || job.journal.stopped with
    | true => exact .pure ⟨_, _, { h with }⟩
    | false =>
      unfold planOf listedCount at h
      rw [List.map_cons, List.sum_cons, List.flatMap_cons, Nat.add_assoc, List.append_assoc] at h
      have hnext : Underway out start plan total _ _ { job with
          interrupted := false, journal := { job.journal with stops := job.journal.stops + 1 } } :=
        { h with }
      refine (hnext.resolveChain e.2 (hnodes e.1) rfl).bind fun stop job₁ h₁ => ?_
      cases stop with
      | true => exact .pure h₁
      | false => exact ih h₁.1 h₁.2

theorem tries_work {task : ResolveTask α} {listed : List (String × List String)}
    (hlisted : task.candidates = listing listed)
    (hnodes : ∀ chain url, Json.lookup? task.nodes chain = some url → ∃ s, url = .str s)
    (hstep : task.progress.percentStep = .whole 10) (hprocessed : task.progress.processed = 0)
    (htally : task.tally = {}) (out : Outside α) (journal : Journal α) :
    Works out ⟨false, false, task, journal⟩ (planOf task.nodes listed) (listedCount listed)
      (do Resolve.begin out; work out) ⟨false, false, task, journal⟩ fun _ job' =>
        ∃ ahead left, Underway out ⟨false, false, task, journal⟩ (planOf task.nodes listed)
          (listedCount listed) ahead left job' := by
  obtain ⟨job, hbegin, hjob, hcandidates, houtward, hgoing⟩ : ∃ job : Resolve α,
      (Resolve.begin out).go ⟨false, false, task, journal⟩ = (.ok (), job) ∧
      Underway out ⟨false, false, task, journal⟩ (planOf task.nodes listed) (listedCount listed)
        (planOf task.nodes listed ++ []) (listedCount listed + 0) job ∧
      job.task.candidates = task.candidates ∧ job.journal.outward = journal.outward ∧
      job.interrupted = false := by
    have hgo := @go_begin α ⟨false, false, task, journal⟩ _ out (hlisted ▸ totalListed_listing listed)
    refine ⟨_, hgo.trans rfl, ⟨rfl, ⟨[], ?_, ?_⟩, ⟨rfl, hstep, ?_, ?_⟩, ?_, rfl⟩,
      rfl, rfl, rfl⟩
    · simp
    · change Tallied out task.catalog [] task.tally
      exact htally ▸ .nil
    · exact Int.le_of_eq hprocessed.symm
    · change task.progress.processed ≤ _
      omega
    · change task.progress.processed + _ ≤ _
      omega
  refine .after_go hbegin houtward (.after_go rfl rfl ?_)
  rw [hcandidates, hlisted]
  exact hjob.resolveChains listed hnodes hgoing

theorem Underway.closes (h : Underway out start plan total ahead left job) (hfew : total < 2 ^ 64)
    (completed : Bool) :
    Closes out start.task.folder artifacts (Resolve.finish out) { job with completed := completed } := by
  have hcloses := @Resolve.closes α out { job with completed := completed } (h.bounded.small (by omega))
  have hfolder : job.task.folder = start.task.folder := by rw [h.task]
  rwa [← hfolder]

/-- Every resolution surfaces the first failure of its attempts, whatever comes in its way. -/
theorem surfaces {task : ResolveTask α} {listed : List (String × List String)}
    {urls : List (String × String)}
    (htask : task = {
      catalog := task.catalog, folder := task.folder
      candidates := listing listed, nodes := nodesAt urls
      rounds := task.rounds, timeout := task.timeout, interval := task.interval })
    (hfew : listedCount listed < 2 ^ 64) (out : Outside α) (journal : Journal α) :
    Surfaces out task.folder ResolutionTally.fileNames artifacts
      (WholeStops out task.catalog (planOf task.nodes listed))
      (Resolve.begin out) (work out) (Resolve.finish out) ⟨false, false, task, journal⟩ := by
  have hnodes : ∀ chain url, Json.lookup? task.nodes chain = some url → ∃ s, url = .str s := by
    intro chain url h
    rw [htask] at h
    exact lookup?_nodesAt urls chain h
  have hlisted : task.candidates = listing listed := by rw [htask]
  refine Job.surfaces_of_tries (tries_work hlisted hnodes ?_ ?_ ?_ out journal)
    ?_ ?_ ?_ plainFamily_fileNames ?_
  · rw [htask]
  · rw [htask]
  · rw [htask]
  · exact fun job ⟨_, _, h⟩ => h.completed
  · exact fun job ⟨_, _, h⟩ => h.whole
  · exact fun job completed ⟨_, _, h⟩ => h.closes hfew completed
  · rintro docs ⟨stops, t, -, -, hdocs⟩
    obtain rfl := Except.ok.inj hdocs
    rfl

end ProxyCensus.Resolve
