import ProxyCensus.Proofs.Analysis
import ProxyCensus.Proofs.Job.Offline
import ProxyCensus.Proofs.Resolution.Leads
import ProxyCensus.Proofs.Rpc.Sessions

/-!
# The connections of a resolution

What a resolution does on the network, chain by chain. Main statements: whatever comes in its way, and
however it ends, it opens at most one connection for each chain that it visits, and closes it before it
opens the next one; every message is sent in between, to an address of that chain; and what it was told to
do stays as it was, and the corpus open.
-/

namespace ProxyCensus

/-- Whether an event opens or closes a connection. -/
def Event.opens? {α : Type} : Event α → Option Bool
  | .open _ => some true
  | .close => some false
  | .post _ | .sleep _ => none

namespace Resolve

open Act (Keeps Leads)

variable {α β : Type}

/-- What happens on the network while chains are visited one after another. A chain without a connection
leaves nothing. Otherwise its connection is opened, messages go to the addresses of the chain, with pauses
between them, and the connection is closed. -/
inductive Sessions (nodes : List (String × Json)) : List String → List (Event α) → Prop where
  | nil : Sessions nodes [] []
  | quiet {chains : List String} {told : List (Event α)} (chain : String)
    (h : Sessions nodes chains told) : Sessions nodes (chain :: chains) told
  | session {chain : String} {chains : List String} {told body : List (Event α)} {ends : Endpoints}
    (hends : Client.endpoints? ((Json.lookup? nodes chain).getD .null) = some ends) (timeout : Float)
    (hbody : ∀ e ∈ body, e.Amid ends.urls) (h : Sessions nodes chains told) :
    Sessions nodes (chain :: chains) (.open timeout :: body ++ .close :: told)

variable {nodes : List (String × Json)} {chains more : List String} {told later : List (Event α)}

theorem Sessions.append (h : Sessions nodes chains told) (h' : Sessions nodes more later) :
    Sessions nodes (chains ++ more) (told ++ later) := by
  induction h with
  | nil => exact h'
  | quiet chain _ ih => exact .quiet chain ih
  | session hends timeout hbody _ ih =>
    rw [List.append_assoc]
    exact .session hends timeout hbody ih

theorem filterMap_opens?_of_amid {urls : List Json} {body : List (Event α)}
    (h : ∀ e ∈ body, e.Amid urls) : body.filterMap Event.opens? = [] := by
  refine List.filterMap_eq_nil_iff.2 fun e he => ?_
  cases h e he with
  | post _ => rfl
  | sleep _ => rfl

/-- Connections are opened and closed in turn, for each chain at most once. -/
theorem Sessions.opens? (h : Sessions nodes chains told) :
    ∃ n ≤ chains.length, told.filterMap Event.opens? = (List.replicate n [true, false]).flatten := by
  induction h with
  | nil => exact ⟨0, Nat.le_refl 0, rfl⟩
  | quiet chain _ ih =>
    obtain ⟨n, hn, htold⟩ := ih
    exact ⟨n, Nat.le_succ_of_le hn, htold⟩
  | session hends timeout hbody _ ih =>
    obtain ⟨n, hn, htold⟩ := ih
    refine ⟨n + 1, Nat.succ_le_succ hn, ?_⟩
    rw [List.cons_append, List.filterMap_cons, List.filterMap_append, filterMap_opens?_of_amid hbody,
      List.filterMap_cons, htold]
    rfl

/-- By which patterns a resolution searches, where its files go, on which candidates and with which nodes
it works, and how often the corpus was closed. -/
def terms (job : Resolve α) :
    List Definition × Folder × List (String × Json) × List (String × Json) × Nat :=
  (job.task.catalog, job.task.folder, job.task.candidates, job.task.nodes, job.journal.disposals)

def chart (job : Resolve α) :=
  (terms job, job.task.tally.chains)

def scene (job : Resolve α) :=
  (chart job, job.journal.trace)

theorem offstage_scene : Offstage (scene : Resolve α → _) := by
  intro job interrupted progress j hj
  have htrace : j.trace = job.journal.trace := congrArg (·.2.2.1) hj
  have hdisposals : j.disposals = job.journal.disposals := congrArg (·.2.2.2.2) hj
  simp [scene, chart, terms, htrace, hdisposals]

theorem keeps_scene_record (c : Classification) : Keeps scene (do
    Job.adjust fun task => { task with tally := task.tally.record c }
    tracking (Tracked.track 1 false) : Act (Resolve α) Unit) := by
  refine .bind (fun job => ?_) fun _ => offstage_scene.tracking (Tracked.keeps_online_track 1 false)
  simp only [scene, chart, terms, Job.adjust, Act.go_change, ResolutionTally.chains_record]

/-- From one state of a visit to another its client talks, and the chains are the same. -/
structure Converses (v v' : Visit α) : Prop where
  talks : Line.Talks ⟨v.client, v.job.journal⟩ ⟨v'.client, v'.job.journal⟩
  chart : chart v'.job = chart v.job

instance : Std.Refl (Converses (α := α)) where
  refl _ := ⟨Std.Refl.refl _, rfl⟩

instance : IsTrans (Visit α) Converses where
  trans _ _ _ h h' := ⟨IsTrans.trans _ _ _ h.talks h'.talks, h'.chart.trans h.chart⟩

theorem keeps_chart_asking {x : Act (Line α) β} (h : Keeps Line.setting x) :
    Keeps (fun v : Visit α => chart v.job) (Visit.asking x) :=
  .on h fun _ _ h => by simp [chart, terms, Line.disposals_of_setting h]

theorem converses_asking {x : Act (Line α) β} (h : Leads Line.Talks x) (hkeeps : Keeps Line.setting x) :
    Leads Converses (Visit.asking x) :=
  fun v => ⟨h ⟨v.client, v.job.journal⟩, keeps_chart_asking hkeeps v⟩

theorem converses_working {x : Act (Resolve α) β} (h : Keeps scene x) :
    Leads Converses (Visit.working x) := by
  intro v
  obtain ⟨hchart, htrace⟩ := Prod.mk.inj (h v.job)
  refine ⟨⟨rfl, [], ?_, .silent _⟩, hchart⟩
  rw [List.append_nil]
  exact congrArg Array.toList htrace

variable [Seconds α] (out : Outside α)

theorem converses_resolveMatches (chain address : String) (chainId : Int) (record : ContractRecord)
    (found : List Match) : Leads Converses (resolveMatches out chain address chainId record found) := by
  have htalks : Leads Line.Talks (Analysis.resolve out (some chainId) record found) :=
    Analysis.leads_resolve (Line.talks_ask out)
      (fun _ _ _ => Line.talks_of_keeps (fun _ => rfl) fun _ => rfl) _ _ _
  have hkeeps : Keeps Line.setting (Analysis.resolve out (some chainId) record found) :=
    (Analysis.resolve_fails out (some chainId) record found).keeps
  refine .bind (converses_asking htalks hkeeps).outcome fun r => ?_
  cases r with
  | ok c => exact converses_working (keeps_scene_record c)
  | error f => exact converses_working (offstage_scene.skipWith _ _)

theorem converses_resolveCandidate (chain : String) (chainId : Int) (address : Json) :
    Leads Converses (resolveCandidate out chain chainId address) := by
  refine .bind (converses_working (offstage_scene.offline.writing
    (Corpus.keeps_online_fetchCodes out _ _))) fun codes => ?_
  dsimp only
  split
  · refine .bind .state fun v => ?_
    dsimp only
    split
    · exact converses_working (offstage_scene.skipUnsearched _ _ _)
    · split
      · exact converses_working (offstage_scene.skipWith _ _)
      · exact converses_resolveMatches out _ _ _ _ _
  · exact converses_working (offstage_scene.skipWith _ _)
  · exact converses_working (offstage_scene.skipWith _ _)

theorem converses_resolveAddresses (chain : String) (chainId : Int) (addresses : List Json) :
    Leads Converses (resolveAddresses out chain chainId addresses) := by
  induction addresses with
  | nil => exact .pure _
  | cons address rest ih =>
    refine .bind (converses_working (offstage_scene.offline.shouldStop out)) fun stop => ?_
    split
    · exact .pure _
    · exact .bind (converses_resolveCandidate out chain chainId address) fun _ => ih

/-- What is left on the network of the visit of a chain: nothing, or a connection of its own. -/
inductive Visited (url : Json) : List (Event α) → Prop where
  | quiet : Visited url []
  | session {ends : Endpoints} {body : List (Event α)} (hends : Client.endpoints? url = some ends)
    (timeout : Float) (hbody : ∀ e ∈ body, e.Amid ends.urls) :
    Visited url (.open timeout :: body ++ [.close])

/-- However the visit of a chain ends, the connection that it has opened is closed. -/
theorem visit_visited (chain : String) (chainId : Int) (url : Json) (addresses : List Json)
    (job : Resolve α) :
    let job' := ((visit out chain chainId url addresses).go job).2
    chart job' = chart job ∧ ∃ told : List (Event α),
      job'.journal.trace.toList = job.journal.trace.toList ++ told ∧ Visited url told := by
  intro job'
  cases hends : Client.endpoints? url with
  | none =>
    have hjob : job' = job := by
      unfold job' visit Client.ofUrl?
      rw [hends]
      rfl
    exact ⟨hjob ▸ rfl, [], by rw [hjob, List.append_nil], .quiet⟩
  | some ends =>
    let client : Client α := { endpoints := ends, rounds := job.task.rounds
                               timeout := job.task.timeout, interval := job.task.interval
                               lastSent := Seconds.hundredths 0 }
    let v := ((resolveAddresses out chain chainId addresses).go ⟨client, job⟩).2
    have hjob : job' = ((Visit.asking Line.close).go v).2.job := by
      rw [← Act.state_andFinally]
      unfold job' visit Client.ofUrl?
      rw [hends]
      rfl
    have hv : Converses ⟨client, job⟩ v := converses_resolveAddresses out chain chainId addresses _
    obtain ⟨⟨-, told, htrace, htold⟩, hchart⟩ := hv
    have hclose : job'.journal.trace = (Line.close.go ⟨v.client, v.job.journal⟩).2.journal.trace := by
      rw [hjob]
      rfl
    have hclosed : chart job' = chart v.job := hjob ▸ keeps_chart_asking Line.keeps_close v
    refine ⟨hclosed.trans hchart, ?_⟩
    dsimp only at htold
    generalize hsession : v.client.session = session at htold
    cases htold with
    | silent =>
      refine ⟨[], ?_, .quiet⟩
      rw [hclose, Line.trace_close_of_not_open (by rw [hsession]; exact nofun)]
      exact htrace
    | opens _ timeout hbody =>
      refine ⟨_, ?_, .session hends timeout hbody⟩
      rw [hclose, Line.trace_close_of_open hsession, Array.toList_push]
      exact (congrArg (· ++ [Event.close]) htrace).trans (List.append_assoc ..)

/-- From one state of a resolution to another some of the given chains were visited, in their order. -/
inductive Tours (chains : List String) (job job' : Resolve α) : Prop where
  | intro {visited : List String} {told : List (Event α)} (hvisited : visited.Sublist chains)
    (hterms : terms job' = terms job)
    (hchains : ∀ name, name ∈ job'.task.tally.chains ↔ name ∈ job.task.tally.chains ∨
      name ∈ visited)
    (htrace : job'.journal.trace.toList = job.journal.trace.toList ++ told)
    (htold : Sessions job.task.nodes visited told)

omit [Seconds α] in
theorem Tours.of_scene {job job' : Resolve α} (h : scene job' = scene job) : Tours [] job job' := by
  obtain ⟨hchart, htrace⟩ := Prod.mk.inj h
  obtain ⟨hterms, hchains⟩ := Prod.mk.inj hchart
  refine .intro .slnil hterms (fun name => ?_) ?_ .nil
  · simp [hchains]
  · rw [htrace, List.append_nil]

omit [Seconds α] in
theorem Tours.append {chains more : List String} {job job' job'' : Resolve α} (h : Tours chains job job')
    (h' : Tours more job' job'') : Tours (chains ++ more) job job'' := by
  obtain ⟨hvisited, hterms, hchains, htrace, htold⟩ := h
  obtain ⟨hvisited', hterms', hchains', htrace', htold'⟩ := h'
  have hnodes : job'.task.nodes = job.task.nodes := congrArg (·.2.2.2.1) hterms
  refine .intro (hvisited.append hvisited') (hterms'.trans hterms) (fun name => ?_) ?_
    (htold.append (hnodes ▸ htold'))
  · rw [hchains', hchains, List.mem_append, or_assoc]
  · rw [htrace', htrace, List.append_assoc]

omit [Seconds α] in
theorem Tours.then_still {chains : List String} {job job' job'' : Resolve α} (h : Tours chains job job')
    (h' : Tours [] job' job'') : Tours chains job job'' := by
  have happended := h.append h'
  rwa [List.append_nil] at happended

omit [Seconds α] in
theorem Tours.terms_eq {chains : List String} {job job' : Resolve α} (h : Tours chains job job') :
    terms job' = terms job := by
  cases h
  assumption

omit [Seconds α] in
theorem Tours.mono {chains more : List String} {job job' : Resolve α} (h : Tours chains job job')
    (hsub : chains.Sublist more) : Tours more job job' := by
  obtain ⟨hvisited, hterms, hchains, htrace, htold⟩ := h
  exact .intro (hvisited.trans hsub) hterms hchains htrace htold

omit [Seconds α] in
theorem tours_of_keeps {x : Act (Resolve α) β} (h : Keeps scene x) : Leads (Tours []) x :=
  fun job => .of_scene (h job)

omit [Seconds α] in
theorem Tours.then {chains more : List String} {x : Act (Resolve α) β} {γ : Type}
    {f : β → Act (Resolve α) γ} (hx : Leads (Tours chains) x) (hf : ∀ b, Leads (Tours more) (f b)) :
    Leads (Tours (chains ++ more)) (x >>= f) :=
  hx.bind_to hf (fun h => h.mono (List.sublist_append_left _ _)) fun h h' => h.append h'

/-- The visit of a chain that was noted. -/
theorem tours_visit (chain : String) (chainId : Int) (addresses : List Json) (logs : Array LogRecord)
    (job : Resolve α) :
    Tours [chain] job ((visit out chain chainId ((Json.lookup? job.task.nodes chain).getD .null)
      addresses).go { job with
        task := { job.task with tally := job.task.tally.addChain chain }
        journal := { job.journal with logs := logs } }).2 := by
  obtain ⟨hchart, told, htrace, hvisited⟩ := visit_visited out chain chainId
    ((Json.lookup? job.task.nodes chain).getD .null) addresses { job with
      task := { job.task with tally := job.task.tally.addChain chain }
      journal := { job.journal with logs := logs } }
  obtain ⟨hterms, hchains⟩ := Prod.mk.inj hchart
  refine .intro (.refl [chain]) hterms (fun name => ?_) htrace ?_
  · rw [hchains, List.mem_singleton]
    exact ResolutionTally.mem_chains_addChain
  · cases hvisited with
    | quiet => exact .quiet chain .nil
    | session hends timeout hbody => exact .session hends timeout hbody .nil

theorem tours_resolveChain (chain : String) (addresses : List Json) :
    Leads (Tours [chain]) (resolveChain out chain addresses) := by
  have hskip : ∀ message, Leads (Tours [chain]) (do
      log .warning message
      skip addresses.length
      return false : Act (Resolve α) Bool) := by
    refine fun message job => Tours.mono (tours_of_keeps ?_ job) (List.nil_sublist _)
    exact .bind (offstage_scene.log _ _) fun _ => .bind (offstage_scene.skip _) fun _ => .pure _
  intro job
  unfold resolveChain
  rw [Act.go_bind, Act.go_state]
  dsimp only
  split
  · exact hskip _ job
  · split
    · exact hskip _ job
    · rename_i chainId _
      -- The chain is noted, and what comes after the visit is no business of the network.
      let noted : Resolve α := { job with
        task := { job.task with tally := job.task.tally.addChain chain }
        journal := { job.journal with
          logs := job.journal.logs.push ⟨.info, logger, s!"Processing chain id {chain}"⟩ } }
      have hvisit : Leads (fun before after => before = noted → Tours [chain] job after)
          (visit out chain chainId ((Json.lookup? job.task.nodes chain).getD .null) addresses) := by
        rintro _ rfl
        exact tours_visit out chain chainId addresses _ job
      have hrest : ∀ stop : Bool, Leads (Tours []) (do
          if stop then return true
          flush out
          return false : Act (Resolve α) Bool) := by
        refine fun stop => tours_of_keeps ?_
        split
        · exact .pure _
        · exact .bind (offstage_scene.flush out) fun _ => .pure _
      exact hvisit.bind_to hrest id (fun h h' hbefore => (h hbefore).then_still h') noted rfl

theorem tours_resolveChains (chains : List (String × Json)) :
    Leads (Tours (chains.map (·.1))) (resolveChains out chains) := by
  induction chains with
  | nil => exact tours_of_keeps (.pure _)
  | cons e rest ih =>
    obtain ⟨chain, v⟩ := e
    refine Tours.then (tours_of_keeps (offstage_scene.offline.shouldStop out)) fun stop => ?_
    split
    · exact fun job => (tours_of_keeps (.pure ()) job).mono (List.nil_sublist _)
    · refine Tours.then (tours_resolveChain out chain _) fun stop => ?_
      split
      · exact fun job => (tours_of_keeps (.pure ()) job).mono (List.nil_sublist _)
      · exact ih

/-- From the beginning of a resolution to its end some of the listed chains are visited. -/
theorem tours_run (job : Resolve α) :
    Tours (job.task.candidates.map (·.1)) job ((run out).go job).2 := by
  let ToursAll (before after : Resolve α) : Prop := Tours (before.task.candidates.map (·.1)) before after
  have hwork : Leads ToursAll (work out) := by
    intro job
    unfold work
    rw [Act.go_bind, Act.go_state]
    exact tours_resolveChains out _ job
  have hsettled : Leads ToursAll (do work out; Job.settle) :=
    hwork.bind_to (fun _ => tours_of_keeps fun _ => rfl) id fun h h' => h.then_still h'
  have hbody : Leads ToursAll (do begin out; work out; Job.settle) := by
    refine (tours_of_keeps (offstage_scene.begin out)).bind_to (fun _ => hsettled)
      (fun h => h.mono (List.nil_sublist _)) fun {before begun _} h h' => ?_
    have hcandidates : begun.task.candidates = before.task.candidates :=
      congrArg (·.2.2.1) h.terms_eq
    have happended := h.append h'
    rwa [hcandidates] at happended
  unfold run Job.run
  rw [Act.state_andFinally]
  exact (hbody job).then_still (tours_of_keeps (offstage_scene.finish out) _)

theorem keeps_terms_run : Keeps terms (run out) :=
  fun job => (tours_run out job).terms_eq

/-- Whatever comes in the way of a resolution, and whether it returns or raises, its connections are opened
and closed in turn, the first thing being an opening and the last one a closing; at most one is opened for
each chain that it visits; and every message is sent while there is a connection, to an address of the
chain for which it was opened. -/
theorem run_sessions (job : Resolve α) :
    let job' := ((run out).go job).2
    ∃ (visited : List String) (told : List (Event α)),
      visited.Sublist (job.task.candidates.map (·.1)) ∧
      (∀ name, name ∈ job'.task.tally.chains ↔ name ∈ job.task.tally.chains ∨ name ∈ visited) ∧
      job'.journal.trace.toList = job.journal.trace.toList ++ told ∧
      Sessions job.task.nodes visited told ∧
      ∃ n ≤ visited.length, told.filterMap Event.opens? = (List.replicate n [true, false]).flatten := by
  intro job'
  obtain ⟨hvisited, -, hchains, htrace, htold⟩ : Tours (job.task.candidates.map (·.1)) job job' :=
    tours_run out job
  exact ⟨_, _, hvisited, hchains, htrace, htold, htold.opens?⟩

end Resolve

end ProxyCensus
