import ProxyCensus.Proofs.Job.Marks
import ProxyCensus.Proofs.Job.ResolveCandidates

/-!
# The chains of a resolution

A resolution works on the chains one after the other, with a client of its own for each, and writes its
files after each. Main statement: when every chain has nodes and the corpus has every candidate, a
resolution in whose way nothing comes is complete, has counted every candidate and skipped none.
-/

namespace ProxyCensus

theorem Client.endpoints?_ne_nil {url : Json} {urls : List Json}
    (h : endpoints? url = some (.list urls)) : urls ≠ [] := by
  unfold endpoints? at h
  split at h
  · cases h
    exact List.cons_ne_nil _ _
  · split at h
    · cases h
    · rename_i hne
      cases h
      simpa using hne
  · split at h
    · cases h
    · rename_i hne
      cases h
      simpa using hne
  · split at h <;> cases h

theorem Client.exists_ofUrl? {α : Type} [Seconds α] {url : Json} (h : url.isSet = true)
    (rounds : Int) (timeout : Float) (interval : α) :
    ∃ client : Client α, Client.ofUrl? url rounds timeout interval = .ok client := by
  have hends : ∃ endpoints, Client.endpoints? url = some endpoints := by
    cases url with
    | str s => exact ⟨_, rfl⟩
    | arr items => exact ⟨_, if_neg (by simpa [Json.isSet] using h)⟩
    | obj fields => exact ⟨_, if_neg (by simpa [Json.isSet] using h)⟩
    | null => cases h
    | bool b => exact ⟨_, if_pos h⟩
    | int n => exact ⟨_, if_pos h⟩
    | float x => exact ⟨_, if_pos h⟩
  obtain ⟨endpoints, hends⟩ := hends
  unfold Client.ofUrl?
  rw [hends]
  exact ⟨_, rfl⟩

namespace Resolve

variable {α : Type} [Seconds α] {out : Outside α} {start job : Resolve α} {total : Nat}
  {holds : List Bool → List Post → Prop} {chains : List String} {results : Results}

/-- The candidates of a chain. -/
structure Group where
  chainId : Int
  members : List Classification

namespace Group

def chain (g : Group) : String := toString g.chainId

def entry (g : Group) : String × Json :=
  (g.chain, .arr (g.members.map fun c => .str c.address))

end Group

/-- The configuration names nodes of a chain. -/
def Reachable (nodes : List (String × Json)) (chain : String) : Prop :=
  ∃ url urls, Json.lookup? nodes chain = some url ∧ url.isSet = true ∧
    Client.endpoints? url = some (.list urls)

/-- A chain that has nodes, and whose candidates the corpus has. -/
structure Group.Listed (out : Outside α) (start : Resolve α) (g : Group) : Prop where
  reachable : Reachable start.task.nodes g.chain
  spelled : Text.int? g.chain = some g.chainId
  plain : Text.hasHalf g.chain = false
  known : ∀ c ∈ g.members, Known out start.task.catalog c ∧ c.chainId = g.chainId

theorem Resolving.go_visit (h : Resolving start total holds chains results job)
    (hcalm : Calm out)
    (hdecides : Decides out start.task.catalog start.task.rounds holds) {g : Group}
    (hg : g.Listed out start) {url : Json}
    {urls : List Json} (hurl : Client.endpoints? url = some (.list urls))
    (hroom : results.length + g.members.length ≤ total) :
    ∃ more job', (visit out g.chain g.chainId url (g.members.map fun c => .str c.address)).go job =
        (.ok false, job') ∧
      more.map (·.1) = g.members ∧ Resolving start total holds chains (results ++ more) job' := by
  have hrounds : job.task.rounds = start.task.rounds := by rw [h.task]
  have hclient : ∃ client : Client α,
      Client.ofUrl? url job.task.rounds job.task.timeout job.task.interval = .ok client ∧
        client.endpoints = .list urls ∧ client.rounds = start.task.rounds := by
    unfold Client.ofUrl?
    rw [hurl]
    exact ⟨_, rfl, rfl, hrounds⟩
  obtain ⟨client, hclient, hends, hrounds⟩ := hclient
  have hvisiting : Visiting start total holds chains results ⟨client, job⟩ :=
    ⟨h, ⟨urls, hends, Client.endpoints?_ne_nil hurl⟩, hrounds⟩
  obtain ⟨more, v, hgo, hmore, hv⟩ :=
    hvisiting.go_resolveAddresses hcalm hdecides g.members hg.known hroom
  obtain ⟨l, hclose, hkept⟩ := go_close v
  have hposts := closing_keeps_posts.of_go hclose
  obtain ⟨hstopped, hdisk⟩ := Line.stopped_of_setting hkept
  refine ⟨more, { v.job with journal := l.journal }, ?_, hmore,
    hv.toResolving.journal hposts hstopped hdisk⟩
  unfold visit Group.chain
  rw [Act.go_bind, Act.go_state]
  dsimp only
  rw [hclient, Act.go_bind, Act.go_lift]
  dsimp only
  rw [Act.go_of, Act.go_andFinally hgo hclose]

omit [Seconds α] in
/-- The files of a resolution that has not counted too many contracts are written to a disk that is ready
for them, and it is ready again. -/
theorem go_flush_of_within (haccepted : ∀ n, out.flushFault n = none) {n : Nat}
    (hwithin : job.task.tally.Within n) (hfew : n < 2 ^ 64)
    (hready : Snapshot.Ready job.journal.disk job.task.folder.path ResolutionTally.fileNames) :
    ∃ d, (Resolve.flush out).go job = (.ok (),
        { job with journal := job.journal.saved job.task.folder job.task.tally.artifacts d }) ∧
      Snapshot.Flushed job.journal.disk job.task.folder.path job.task.tally.artifacts d ∧
      Snapshot.Ready d job.task.folder.path ResolutionTally.fileNames := by
  have hnames := ResolutionTally.names_artifacts job.task.tally
  obtain ⟨d, hgo, hflushed⟩ := @Snapshot.flush_ready job.journal.disk job.task.folder.path
    job.task.tally.artifacts (hnames ▸ hready) (hnames ▸ ResolutionTally.family_fileNames)
    (hwithin.rendered hfew)
  refine ⟨d, ?_, hflushed, hnames ▸ hflushed.ready (hnames ▸ hready) (List.cons_ne_nil _ _)⟩
  unfold Resolve.flush Job.writing
  rw [Act.go_bind, Act.go_state]
  dsimp only
  rw [Act.go_on, Journal.go_flush (haccepted _) hgo]

omit [Seconds α] in
/-- The end of a resolution writes the files once more, and says what was counted. -/
theorem go_finish_of_within (haccepted : ∀ n, out.flushFault n = none) {n : Nat}
    (hwithin : job.task.tally.Within n) (hfew : n < 2 ^ 64)
    (hready : Snapshot.Ready job.journal.disk job.task.folder.path ResolutionTally.fileNames)
    (hsmall : job.task.progress.processed.natAbs < 2 ^ 255) :
    ∃ d dates logs, (Resolve.finish out).go job = (.ok (), { job with
        task := { job.task with progress := { job.task.progress with started := none } }
        journal := { job.journal.saved job.task.folder job.task.tally.artifacts d with
          dates := dates, logs := logs } }) ∧
      Snapshot.Flushed job.journal.disk job.task.folder.path job.task.tally.artifacts d ∧
      Snapshot.Ready d job.task.folder.path ResolutionTally.fileNames := by
  obtain ⟨logs, hcounted⟩ := go_tracking_finish out hsmall
  obtain ⟨d, hflush, hflushed⟩ := @go_flush_of_within α out { job with
      task := { job.task with progress := { job.task.progress with started := none } }
      journal := { job.journal with
        dates := job.journal.dates + job.task.progress.started.toList.length, logs := logs } }
    haccepted n hwithin hfew hready
  obtain ⟨logs₁, hsummary⟩ : ∃ logs₁, summarize.go { job with
      task := { job.task with progress := { job.task.progress with started := none } }
      journal := Journal.saved { job.journal with
        dates := job.journal.dates + job.task.progress.started.toList.length, logs := logs }
        job.task.folder job.task.tally.artifacts d } = (.ok (), { job with
      task := { job.task with progress := { job.task.progress with started := none } }
      journal := { job.journal.saved job.task.folder job.task.tally.artifacts d with
        dates := job.journal.dates + job.task.progress.started.toList.length
        logs := logs₁ } }) := ⟨_, rfl⟩
  unfold finish
  rw [Act.go_bind, hcounted]
  dsimp only
  rw [Act.go_bind, Job.go_lastFlush hflush]
  change ∃ d dates logs, Act.go (summarize >>= _) _ = _ ∧ _
  rw [Act.go_bind, hsummary]
  dsimp only
  rw [Act.go_bind, Act.go_state]
  dsimp only
  split
  · exact ⟨d, _, _, rfl, hflushed⟩
  · exact ⟨d, _, _, rfl, hflushed⟩

omit [Seconds α] in
theorem Resolving.few (h : Resolving start total holds chains results job) (htotal : total < 2 ^ 64) :
    results.length < 2 ^ 64 := by
  have := h.bounded.within
  rw [h.processed] at this
  omega

omit [Seconds α] in
theorem Resolving.go_flush (h : Resolving start total holds chains results job)
    (haccepted : ∀ n, out.flushFault n = none) (htotal : total < 2 ^ 64) :
    ∃ job', (Resolve.flush out).go job = (.ok (), job') ∧
      Resolving start total holds chains results job' ∧ job'.completed = job.completed := by
  obtain ⟨d, hgo, -, hready⟩ :=
    go_flush_of_within haccepted h.within (h.few htotal) (h.folder.symm ▸ h.ready)
  exact ⟨_, hgo, { h with ready := h.folder ▸ hready }, rfl⟩

omit [Seconds α] in
theorem Resolving.log (h : Resolving start total holds chains results job) (logs : Array LogRecord) :
    Resolving start total holds chains results { job with journal := { job.journal with logs := logs } } :=
  h.journal rfl rfl rfl

omit [Seconds α] in
theorem Resolving.addChain (h : Resolving start total holds chains results job) {chain : String}
    (hnew : chain ∉ chains) (hplain : Text.hasHalf chain = false) :
    Resolving start total holds (chains ++ [chain]) results
      { job with task := { job.task with tally := job.task.tally.addChain chain } } :=
  { h with
    task := by rw [h.task]
    counts := h.counts.addChain hnew
    within := h.within.addChain hplain }

theorem Resolving.go_resolveChain (h : Resolving start total holds chains results job)
    (hcalm : Calm out) (hdecides : Decides out start.task.catalog start.task.rounds holds)
    (htotal : total < 2 ^ 64) {g : Group}
    (hg : g.Listed out start) (hnew : g.chain ∉ chains)
    (hroom : results.length + g.members.length ≤ total) :
    ∃ more job', (resolveChain out g.chain (g.members.map fun c => .str c.address)).go job =
        (.ok false, job') ∧
      more.map (·.1) = g.members ∧
      Resolving start total holds (chains ++ [g.chain]) (results ++ more) job' := by
  obtain ⟨url, urls, hlookup, hset, hends⟩ := hg.reachable
  have hnodes : job.task.nodes = start.task.nodes := by rw [h.task]
  have hlogged := (h.log (job.journal.logs.push ⟨.info, logger,
    s!"Processing chain id {g.chain}"⟩)).addChain hnew hg.plain
  obtain ⟨more, job₁, hgo₁, hmore, h₁⟩ := hlogged.go_visit hcalm hdecides hg hends hroom
  obtain ⟨job₂, hgo₂, h₂, -⟩ := h₁.go_flush hcalm.accepted htotal
  refine ⟨more, job₂, ?_, hmore, h₂⟩
  unfold resolveChain
  rw [Act.go_bind, Act.go_state]
  dsimp only
  rw [hnodes, hlookup, Option.getD_some, hset, hg.spelled]
  change Act.go (visit out g.chain g.chainId url _ >>= _) _ = _
  rw [Act.go_bind, hgo₁]
  change Act.go (Resolve.flush out >>= _) job₁ = _
  rw [Act.go_bind, hgo₂]
  rfl

theorem Resolving.go_resolveChains (hcalm : Calm out)
    (hdecides : Decides out start.task.catalog start.task.rounds holds) (htotal : total < 2 ^ 64)
    (groups : List Group) :
    ∀ {chains : List String} {results : Results} {job : Resolve α},
      Resolving start total holds chains results job → (∀ g ∈ groups, g.Listed out start) →
      (chains ++ groups.map Group.chain).Nodup →
      results.length + (groups.flatMap Group.members).length ≤ total →
      ∃ more job', (resolveChains out (groups.map Group.entry)).go job = (.ok (), job') ∧
        more.map (·.1) = groups.flatMap Group.members ∧
        Resolving start total holds (chains ++ groups.map Group.chain) (results ++ more) job' := by
  induction groups with
  | nil =>
    intro chains results job h _ _ _
    refine ⟨[], job, rfl, rfl, ?_⟩
    rwa [List.map_nil, List.append_nil, List.append_nil]
  | cons g rest ih =>
    intro chains results job h hgroups hnodup hroom
    obtain ⟨hg, hrest⟩ := List.forall_mem_cons.1 hgroups
    rw [List.flatMap_cons, List.length_append] at hroom
    rw [List.map_cons] at hnodup
    have hnew : g.chain ∉ chains := fun hmem =>
      (List.nodup_append.1 hnodup).2.2 _ hmem _ List.mem_cons_self rfl
    rw [List.append_cons] at hnodup
    have hasked := @Resolving.journal α start job total holds chains results h
      { job.journal with stops := job.journal.stops + 1 } rfl rfl rfl
    obtain ⟨first, job₁, hgo₁, hfirst, h₁⟩ :=
      hasked.go_resolveChain hcalm hdecides htotal hg hnew (by omega)
    have hlength : first.length = g.members.length := by rw [← hfirst, List.length_map]
    obtain ⟨more, job₂, hgo₂, hmore, h₂⟩ := ih h₁ hrest hnodup (by rw [List.length_append]; omega)
    refine ⟨first ++ more, job₂, ?_, ?_, ?_⟩
    · rw [List.map_cons, Group.entry, resolveChains, Act.go_bind, h.go_shouldStop hcalm.untold]
      change Act.go (resolveChain out g.chain (g.members.map fun c => .str c.address) >>= _) _ = _
      rw [Act.go_bind, hgo₁]
      exact hgo₂
    · rw [List.map_append, hfirst, hmore, List.flatMap_cons]
    · rw [List.map_cons, List.append_cons, ← List.append_assoc results]
      exact h₂

omit [Seconds α] in
theorem totalListed_entries (groups : List Group) :
    totalListed (groups.map Group.entry) = .ok (groups.flatMap Group.members).length := by
  induction groups with
  | nil => rfl
  | cons g rest ih =>
    rw [List.map_cons, Group.entry, totalListed]
    dsimp only [listed?]
    rw [ih, List.flatMap_cons, List.length_append]
    simp [Except.map]

/-- A resolution of the candidates of some chains that has just been set up. -/
structure Fresh (start : Resolve α) (groups : List Group) : Prop where
  candidates : start.task.candidates = groups.map Group.entry
  tally : start.task.tally = {}
  step : start.task.progress.percentStep = .whole 10
  processed : start.task.progress.processed = 0
  skipped : start.task.progress.skipped = 0
  interrupted : start.interrupted = false
  completed : start.completed = false
  stopped : start.journal.stopped = false
  ready : Snapshot.Ready start.journal.disk start.task.folder.path ResolutionTally.fileNames


omit [Seconds α] in
theorem go_begin {n : Nat} (out : Outside α) (h : totalListed job.task.candidates = .ok n) :
    (begin out).go job = Act.go (do
      log .info s!"Resolving {n} candidate contracts on {job.task.candidates.length} chains"
      tracking (Tracked.start out (some n)) : Act (Resolve α) Unit) job := by
  unfold begin
  rw [Act.go_bind, Act.go_state]
  dsimp only
  rw [Act.go_bind, h]
  rfl

omit [Seconds α] in
theorem Fresh.begin {groups : List Group} (h : Fresh start groups) (out : Outside α)
    (hholds : holds [] start.journal.posts) :
    ∃ job, (Resolve.begin out).go start = (.ok (), job) ∧
      job.task.candidates = groups.map Group.entry ∧
      Resolving start (groups.flatMap Group.members).length holds [] [] job := by
  have hgo := @go_begin α start _ out (h.candidates ▸ totalListed_entries groups)
  refine ⟨_, hgo.trans rfl, h.candidates, rfl, h.tally ▸ ResolutionTally.counts_empty,
    h.tally ▸ ResolutionTally.within_empty, ⟨rfl, h.step, ?_, ?_⟩, h.processed, h.skipped, hholds,
    h.stopped, h.interrupted, h.ready⟩
  · exact Int.le_of_eq h.processed.symm
  · change start.task.progress.processed ≤ _
    rw [h.processed]
    exact Int.natCast_nonneg _

omit [Seconds α] in
theorem Resolving.finish (h : Resolving start total holds chains results job)
    (haccepted : ∀ n, out.flushFault n = none) (htotal : total < 2 ^ 64) :
    ∃ last, (Resolve.finish out).go job = (.ok (), last) ∧
      Resolving start total holds chains results last ∧ last.completed = job.completed := by
  obtain ⟨d, dates, logs, hgo, -, hready⟩ := go_finish_of_within haccepted h.within (h.few htotal)
    (h.folder.symm ▸ h.ready) (h.bounded.small (by omega))
  exact ⟨_, hgo, { h with
    task := by rw [h.task]
    bounded := ⟨h.bounded.total, h.bounded.step, h.bounded.nonneg, h.bounded.within⟩
    ready := h.folder ▸ hready }, rfl⟩

/-- A resolution in whose way nothing but the nodes comes is complete. It has worked on every
candidate of every chain. -/
theorem Fresh.run {groups : List Group} (h : Fresh start groups) (hcalm : Calm out)
    (hdecides : Decides out start.task.catalog start.task.rounds holds)
    (hholds : holds [] start.journal.posts) (hgroups : ∀ g ∈ groups, g.Listed out start)
    (hnodup : (groups.map Group.chain).Nodup)
    (htotal : (groups.flatMap Group.members).length < 2 ^ 64) :
    ∃ results last, (Resolve.run out).go start = (.ok (), last) ∧ last.completed = true ∧
      results.map (·.1) = groups.flatMap Group.members ∧
      Resolving start (groups.flatMap Group.members).length holds (groups.map Group.chain) results
        last := by
  obtain ⟨job, hbegin, hcandidates, hjob⟩ := h.begin out hholds
  obtain ⟨results, last, hchains, hresults, hlast⟩ :=
    hjob.go_resolveChains hcalm hdecides htotal groups hgroups hnodup (by simp)
  rw [List.nil_append, List.nil_append] at hlast
  have hwork : Act.go (do Resolve.begin out; work out) start = (.ok (), last) := by
    rw [Act.go_bind, hbegin]
    unfold work
    dsimp only
    rw [Act.go_bind, Act.go_state]
    dsimp only
    rw [hcandidates]
    exact hchains
  have hsettled : Resolving start (groups.flatMap Group.members).length holds
      (groups.map Group.chain) results { last with completed := !last.interrupted } := { hlast with }
  obtain ⟨ended, hfinish, hended, hcompleted⟩ := hsettled.finish hcalm.accepted htotal
  refine ⟨results, ended, Job.go_run hwork hfinish, ?_, hresults, hended⟩
  rw [hcompleted, hlast.interrupted]
  rfl

end Resolve

end ProxyCensus
