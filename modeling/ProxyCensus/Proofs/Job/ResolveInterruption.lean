import ProxyCensus.Proofs.Job.ResolveThrough

/-!
# Interrupting a resolution

A resolution that is told to stop is compared with one that is never told so and is given only the
candidates that come first. Main statement: they send the same, count the same and leave the same files;
after the one has noticed it sends nothing and writes its files once; and it is complete unless it was
told to stop.
-/

namespace ProxyCensus

variable {α : Type}

/-- The same outside, but nobody tells to stop. -/
def Outside.unstopped (out : Outside α) : Outside α :=
  { out with stop := fun _ => false }

namespace Resolve

/-- The candidates that come first: those of whole chains, and of the chain behind them none or some that
come first. -/
inductive Cut : List (String × List String) → List (String × List String) → Prop where
  | before (chains : List (String × List String)) : Cut [] chains
  | within (chain : String) {dealt addresses : List String} (h : dealt <+: addresses)
    (chains : List (String × List String)) : Cut [(chain, dealt)] ((chain, addresses) :: chains)
  | after (e : String × List String) {cut chains : List (String × List String)} (h : Cut cut chains) :
    Cut (e :: cut) (e :: chains)

theorem Cut.append {cut chains : List (String × List String)} (h : Cut cut chains) :
    ∀ done, Cut (done ++ cut) (done ++ chains)
  | [] => h
  | e :: done => .after e (h.append done)

theorem Cut.listedCount_le {cut listed : List (String × List String)} (h : Cut cut listed) :
    listedCount cut ≤ listedCount listed := by
  induction h with
  | before chains => exact Nat.zero_le _
  | within chain h chains =>
    have hlength := h.length_le
    simp only [listedCount, List.map_cons, List.sum_cons, List.map_nil, List.sum_nil]
    omega
  | after e _ ih =>
    simp only [listedCount, List.map_cons, List.sum_cons] at ih ⊢
    omega

variable {out : Outside α} {first total n : Nat} {start : List (String × List String) → Resolve α}
  {listed : List (String × List String)} {job noticed : Resolve α} {p p' : Point α}

theorem Unhindered.unstopped (h : Unhindered out) : Unhindered out.unstopped :=
  ⟨h.undisturbed, h.accepted⟩

variable [Seconds α]

theorem Point.Told.resume (h : p.Told out noticed) :
    ∃ j, p.resume out = (.ok (), { noticed with journal := j }) ∧
      j.posts = noticed.journal.posts ∧ Line.still j = Line.still noticed.journal := by
  cases h with
  | @between e chains job _ hgo =>
    refine ⟨noticed.journal, ?_, rfl, rfl⟩
    change Act.go (Job.shouldStop out >>= _) job = _
    rw [Act.go_bind, hgo]
    rfl
  | @within chain address chainId addresses chains v _ hgo =>
    have hstop : (Visit.working (Job.shouldStop out)).go v = (.ok true, ⟨v.client, noticed⟩) :=
      go_working hgo
    obtain ⟨l, hclose, hresume⟩ := @resume_of_left α _ out _ _ (address :: addresses) _ _ _
      (go_resolveAddresses_of_stop hstop (addresses.map .str) (.str address)) chains
    obtain ⟨l', hclose', hsetting⟩ := go_close (⟨v.client, noticed⟩ : Visit α)
    have hposts := closing_keeps_posts.of_go hclose
    have hjournal : l'.journal = l.journal :=
      congrArg (fun r : Except Failure Unit × Visit α => r.2.job.journal) (hclose'.symm.trans hclose)
    exact ⟨l.journal, hresume, hposts, hjournal ▸ congrArg (·.2.2) hsetting⟩

section Twins

/-! A resolution and its twin that nobody tells to stop agree in all but what is bare. Where they have the
same candidate or the same chain next they take the same step, and agree again. -/

variable {first' total' : Nat} {job' job₁ : Resolve α} {v v' w : Visit α} {chain address : String}
  {chainId : Int} {addresses addresses' : List String} {chains later : List (String × List String)}
  {more : List (Entry α)}

omit [Seconds α] in
theorem Sound.room (h : Sound out first total (.between ((chain, addresses) :: chains) job)) :
    (asked job).task.progress.processed + addresses.length ≤ total := by
  have hroom := h.going.room
  change job.task.progress.processed + ((addresses.map (chain, ·) ++ pairs chains).length : Nat) ≤ total
    at hroom
  rw [List.length_append, List.length_map] at hroom
  change job.task.progress.processed + _ ≤ _
  omega

theorem twin_passOver (h : Sound out first total (.between ((chain, addresses) :: chains) job))
    (h' : Sound out.unstopped first' total' (.between ((chain, addresses) :: later) job'))
    (hbare : job.bare = job'.bare)
    (hstep : Step out (.between ((chain, addresses) :: chains) job) more (.between chains job₁)) :
    ∃ more' job₁', Step out.unstopped (.between ((chain, addresses) :: later) job') more'
      (.between later job₁') ∧ job₁.bare = job₁'.bare := by
  cases hstep with
  | passOver hgoing hnumber hgo =>
    obtain ⟨rfl, -⟩ := h.going.eq_asked hgoing
    obtain ⟨logs, hpassed⟩ := go_resolveChain_of_none out hnumber h.going.bounded addresses h.room
    obtain rfl := (Prod.mk.inj (hpassed.symm.trans hgo)).2
    have hnumber' : numberOf? (asked job').task.nodes chain = none :=
      (setup_of_bare hbare).2.1.symm ▸ hnumber
    obtain ⟨logs', hpassed'⟩ := go_resolveChain_of_none out.unstopped hnumber' h'.going.bounded addresses
      h'.room
    exact ⟨_, _, .passOver (h'.going.go_shouldStop fun _ => rfl) hnumber' hpassed', hbare⟩

theorem twin_enter (h : Sound out first total (.between ((chain, addresses) :: chains) job))
    (h' : Sound out.unstopped first' total' (.between ((chain, addresses') :: later) job'))
    (hbare : job.bare = job'.bare) (hstep : Step out (.between ((chain, addresses) :: chains) job) more
      (.within chain chainId addresses chains v)) :
    ∃ more' v', Step out.unstopped (.between ((chain, addresses') :: later) job') more'
      (.within chain chainId addresses' later v') ∧ v.bare = v'.bare := by
  cases hstep with
  | @enter _ _ _ _ _ job₁ _ client hgoing hnumber hnoted hclient =>
    obtain ⟨rfl, -⟩ := h.going.eq_asked hgoing
    obtain rfl := (Prod.mk.inj hnoted).2
    obtain ⟨-, hnodes, hrounds, htimeout, hinterval⟩ := setup_of_bare hbare
    refine ⟨_, ⟨client, entered chain (asked job')⟩,
      .enter (h'.going.go_shouldStop fun _ => rfl) (hnodes ▸ hnumber) rfl ?_,
      congrArg (Visit.mk client)
        (bare_entered (show (asked job).bare = (asked job').bare from hbare) chain)⟩
    change Client.ofUrl? ((Json.lookup? job'.task.nodes chain).getD .null) job'.task.rounds
      job'.task.timeout job'.task.interval = _
    rw [hnodes, hrounds, htimeout, hinterval]
    exact hclient

theorem twin_candidate (hout : Unhindered out)
    (h : Sound out first total (.within chain chainId (address :: addresses) chains v))
    (h' : Sound out.unstopped first' total' (.within chain chainId (address :: addresses') later v'))
    (hbare : v.bare = v'.bare)
    (hstep : Step out (.within chain chainId (address :: addresses) chains v) more
      (.within chain chainId addresses chains w)) :
    ∃ more' w', Step out.unstopped (.within chain chainId (address :: addresses') later v') more'
      (.within chain chainId addresses' later w') ∧ w.bare = w'.bare := by
  cases hstep with
  | @candidate _ _ _ _ _ _ v₁ v₂ _ codes hgoing hlookup hgo =>
    obtain ⟨hworking, hv₁⟩ := go_of_working hgoing
    obtain ⟨hjob₁, -⟩ := h.going.eq_asked hworking
    have hgoing₁ : Going total (1 + (addresses.map (chain, ·) ++ pairs chains).length) v₁.job := by
      rw [hjob₁, Nat.add_comm]
      exact h.going.asked
    obtain ⟨_, hw, -, hdealt⟩ := hgoing₁.go_resolveCandidate hout.undisturbed chain chainId address
    obtain rfl := (Prod.mk.inj (hw.symm.trans hgo)).2
    have hgoing₁' : Going total' (1 + (addresses'.map (chain, ·) ++ pairs later).length)
      (asked v'.job) := by
      rw [Nat.add_comm]
      exact h'.going.asked
    obtain ⟨w', hw', -, hdealt'⟩ := hgoing₁'.go_resolveCandidate
      (v := ⟨v'.client, _⟩) hout.unstopped.undisturbed chain chainId address
    refine ⟨_, w', .candidate (go_working (h'.going.go_shouldStop fun _ => rfl))
      (go_lookup hout.undisturbed ..) hw',
      Dealt.bare_eq (show Line.Akin Line.bare out out.unstopped from Line.akin_bare rfl rfl) rfl
        hdealt hdealt' ?_⟩
    rw [hv₁, hjob₁]
    exact hbare

theorem twin_leave (later : List (String × List String)) (hbare : v.bare = v'.bare)
    (hstep : Step out (.within chain chainId [] chains v) more (.between chains job₁)) :
    ∃ more' job₁', Step out.unstopped (.within chain chainId [] later v') more'
    (.between later job₁') ∧
      job₁.bare = job₁'.bare := by
  cases hstep with
  | leave hclose hflush =>
    obtain ⟨l', hclose', -⟩ := go_close v'
    have hclosed := (alike_asking Line.alike_close v v' hbare).2
    rw [hclose, hclose'] at hclosed
    obtain ⟨hresult, hflushed⟩ := alike_flush
      (show out.unstopped.flushFault = out.flushFault from rfl) _ _
      (Visit.exists_of_bare hclosed).1
    rw [hflush] at hresult hflushed
    exact ⟨_, ((flush out.unstopped).go { v'.job with journal := l'.journal }).2,
      .leave hclose' (Prod.ext hresult.symm rfl), hflushed⟩

end Twins

/-- Where a resolution stands its twin comes to as well, if its candidates begin with those that were dealt
with, whatever comes behind them. -/
inductive Retraced (out : Outside α) (start : List (String × List String) → Resolve α)
    (listed : List (String × List String)) : Point α → Prop where
  | between (done : List (String × List String)) {chains : List (String × List String)} {job : Resolve α}
    (hlisted : listed = done ++ chains)
    (h : ∀ later, listedCount (done ++ later) < 2 ^ 64 → ∃ entries job',
      Reaches out.unstopped (start (done ++ later)) (done ++ later) entries (.between later job') ∧
        job.bare = job'.bare) :
    Retraced out start listed (.between chains job)
  | within (done : List (String × List String)) {chains : List (String × List String)} {chain : String}
    {chainId : Int} (dealt : List String) {addresses : List String} {v : Visit α}
    (hlisted : listed = done ++ (chain, dealt ++ addresses) :: chains)
    (h : ∀ more later, listedCount (done ++ (chain, dealt ++ more) :: later) < 2 ^ 64 → ∃ entries v',
      Reaches out.unstopped (start (done ++ (chain, dealt ++ more) :: later))
        (done ++ (chain, dealt ++ more) :: later) entries (.within chain chainId more later v') ∧
        v.bare = v'.bare) :
    Retraced out start listed (.within chain chainId addresses chains v)

/-- The twins of all resolutions are sound. -/
def Steadfast (out : Outside α) (first : Nat) (start : List (String × List String) → Resolve α) : Prop :=
  ∀ {listed entries p}, listedCount listed < 2 ^ 64 →
    Reaches out.unstopped (start listed) listed entries p →
    Sound out.unstopped first (listedCount listed) p

theorem Retraced.step (hout : Unhindered out) (hsteadfast : Steadfast out first start)
    (hsound : Sound out first total p) (h : Retraced out start listed p) {more : List (Entry α)}
    (hstep : Step out p more p') : Retraced out start listed p' := by
  have hstep' := hstep
  cases hstep with
  | @passOver chain addresses chains =>
    cases h with
    | @between done _ _ hlisted h =>
    refine .between (done ++ [(chain, addresses)]) (by simp [hlisted]) fun later hfew => ?_
    rw [List.append_assoc] at hfew ⊢
    obtain ⟨entries, job', hreaches, hbare⟩ := h ((chain, addresses) :: later) hfew
    obtain ⟨_, _, htwin, hend⟩ := twin_passOver hsound (hsteadfast hfew hreaches) hbare hstep'
    exact ⟨_, _, hreaches.step htwin, hend⟩
  | @enter chain chainId addresses chains =>
    cases h with
    | @between done _ _ hlisted h =>
    refine .within done [] hlisted fun more later hfew => ?_
    obtain ⟨entries, job', hreaches, hbare⟩ := h ((chain, more) :: later) hfew
    obtain ⟨_, _, htwin, hend⟩ := twin_enter hsound (hsteadfast hfew hreaches) hbare hstep'
    exact ⟨_, _, hreaches.step htwin, hend⟩
  | @candidate chain address chainId addresses chains =>
    cases h with
    | @within done _ _ _ dealt _ _ hlisted h =>
    refine .within done (dealt ++ [address]) (by simp [hlisted]) fun more later hfew => ?_
    rw [List.append_assoc] at hfew ⊢
    obtain ⟨entries, v', hreaches, hbare⟩ := h (address :: more) later hfew
    obtain ⟨_, _, htwin, hend⟩ := twin_candidate hout hsound (hsteadfast hfew hreaches) hbare hstep'
    exact ⟨_, _, hreaches.step htwin, hend⟩
  | @leave chain chainId chains =>
    cases h with
    | @within done _ _ _ dealt _ _ hlisted h =>
    rw [List.append_nil] at hlisted
    refine .between (done ++ [(chain, dealt)]) (by simp [hlisted]) fun later hfew => ?_
    rw [List.append_assoc] at hfew ⊢
    have hnil := h [] later
    rw [List.append_nil] at hnil
    obtain ⟨entries, v', hreaches, hbare⟩ := hnil hfew
    obtain ⟨_, _, htwin, hend⟩ := twin_leave later hbare hstep'
    exact ⟨_, _, hreaches.step htwin, hend⟩

/-- Wherever a resolution stands its twin comes to as well. -/
theorem Reaches.retraced (hout : Unhindered out) (hsteadfast : Steadfast out first start)
    (hsound : ∀ {entries p}, Reaches out (start listed) listed entries p → Sound out first total p)
    {begun : Resolve α} (hbegin : (begin out).go (start listed) = (.ok (), begun))
    (htwins : ∀ listed', ∃ begun', (begin out.unstopped).go (start listed') = (.ok (), begun') ∧
      begun.bare = begun'.bare) {entries : List (Entry α)}
    (h : Reaches out (start listed) listed entries p) : Retraced out start listed p := by
  induction h with
  | begun hbegin' =>
    obtain rfl := (Prod.mk.inj (hbegin.symm.trans hbegin')).2
    refine .between [] rfl fun later _ => ?_
    obtain ⟨begun', hgo, hbare⟩ := htwins later
    exact ⟨[], begun', .begun hgo, hbare⟩
  | step hreaches hstep ih => exact ih.step hout hsteadfast (hsound hreaches) hstep

/-- Where a resolution is told to stop, the candidates that were dealt with are all that its twin needs to
come to its end with the same tally, when it has sent the same. -/
theorem Retraced.exists_cut (hout : Unhindered out) (hsteadfast : Steadfast out first start)
    (hfew : listedCount listed < 2 ^ 64) (h : Retraced out start listed p) (htold : p.Told out noticed) :
    ∃ cut entries job', Cut cut listed ∧
      Reaches out.unstopped (start cut) cut entries (.between [] job') ∧
      job'.task.tally = p.job.task.tally ∧ job'.journal.posts = p.job.journal.posts := by
  cases htold with
  | @between e chains job =>
    cases h with
    | @between done _ _ hlisted h =>
    have hcut : Cut done listed := by
      have hbefore := (Cut.before (e :: chains)).append done
      rwa [List.append_nil, ← hlisted] at hbefore
    have hnil := h []
    rw [List.append_nil] at hnil
    obtain ⟨entries, job', hreaches, hbare⟩ := hnil (Nat.lt_of_le_of_lt hcut.listedCount_le hfew)
    obtain ⟨_, _, _, _, _, _, _, rfl⟩ := exists_of_bare hbare
    exact ⟨done, entries, _, hcut, hreaches, rfl, rfl⟩
  | @within chain address chainId addresses chains v =>
    cases h with
    | @within done _ _ _ dealt _ _ hlisted h =>
    have hcut : Cut (done ++ [(chain, dealt)]) listed :=
      hlisted ▸ (Cut.within chain (List.prefix_append dealt _) chains).append done
    have hnil := h [] []
    rw [List.append_nil] at hnil
    have hless := Nat.lt_of_le_of_lt hcut.listedCount_le hfew
    obtain ⟨entries, v', hreaches, hbare⟩ := hnil hless
    obtain ⟨_, _, _, _, _, _, _, hjob⟩ := exists_of_bare (Visit.exists_of_bare hbare).1
    obtain ⟨job', hleave, htask, hposts⟩ :=
      (hsteadfast hless hreaches).exists_leave hout.unstopped hless
    refine ⟨_, _, job', hcut, hreaches.step hleave, ?_, ?_⟩
    · rw [htask, hjob]
      rfl
    · rw [hposts, hjob]
      rfl

/-- How a resolution ends that was told to stop: `noticed` is the resolution when it has noticed. -/
structure Interrupted (out : Outside α) (start : List (String × List String) → Resolve α)
    (listed : List (String × List String)) (noticed last : Resolve α) : Prop where
  /-- It was told to stop at a point that its work came to. -/
  told : ∃ begun entries p, (begin out).go (start listed) = (.ok (), begun) ∧
    Reaches out (start listed) listed entries p ∧ (work out).go begun = p.resume out ∧ p.Told out noticed
  /-- After it has noticed it sends nothing and writes its files once. -/
  posts : last.journal.posts = noticed.journal.posts
  flushCalls : last.journal.flushCalls = noticed.journal.flushCalls + 1
  saved : Snapshot.Holds last.journal.disk last.task.folder.path last.task.tally.artifacts
  /-- A resolution of the candidates that come first, which nobody tells to stop, is complete, sends the
  same, counts the same and leaves the same files. -/
  twin : ∃ cut last', Cut cut listed ∧ (run out.unstopped).go (start cut) = (.ok (), last') ∧
    last'.completed = true ∧ last'.journal.posts = last.journal.posts ∧
    last'.task.tally = last.task.tally ∧
    ∀ name ∈ ResolutionTally.fileNames, last'.journal.disk.get? (last.task.folder.path ++ [name]) =
      last.journal.disk.get? (last.task.folder.path ++ [name])

section New

variable {catalog : List Definition} {folder : Folder} {nodes : List (String × Json)} {rounds : Int}
  {timeout : Float} {interval : α} {journal : Journal α} {entries : List (Entry α)}

omit [Seconds α] in
theorem exists_begun_twin {begun : Resolve α} (hbegin : (begin out).go (ofListed catalog folder listed nodes
    rounds timeout interval journal) = (.ok (), begun)) (listed' : List (String × List String)) :
    ∃ begun', (begin out.unstopped).go
        (ofListed catalog folder listed' nodes rounds timeout interval journal) =
      (.ok (), begun') ∧ begun.bare = begun'.bare := by
  have hgo := @go_begin α (ofListed catalog folder listed nodes rounds timeout interval journal) _ out
    (totalListed_listing listed)
  have hgo' := @go_begin α (ofListed catalog folder listed' nodes rounds timeout interval journal) _
    out.unstopped (totalListed_listing listed')
  obtain rfl := (Prod.mk.inj (hgo.symm.trans hbegin)).2
  exact ⟨_, hgo'.trans rfl, rfl⟩

/-- A new resolution that is told to stop at a point it comes to. -/
theorem Reaches.exists_interrupted (hout : Unhindered out) (hstopped : journal.stopped = false)
    (hready : Snapshot.Ready journal.disk folder.path ResolutionTally.fileNames)
    (hfew : listedCount listed < 2 ^ 64)
    (h : Reaches out (ofListed catalog folder listed nodes rounds timeout interval journal)
      listed entries p)
    (htold : p.Told out noticed) :
    ∃ last, (run out).go (ofListed catalog folder listed nodes rounds timeout interval journal) =
        (.ok (), last) ∧
      last.interrupted = true ∧ last.completed = false ∧
      last.journal.stops = p.job.journal.stops + 1 ∧
      Interrupted out (fun listed => ofListed catalog folder listed nodes rounds timeout interval
        journal) listed
        noticed last := by
  obtain ⟨begun, hbegin, hcandidates, hkept⟩ :=
    kept_begin out catalog folder listed nodes rounds timeout interval journal
  obtain ⟨-, -, hwork⟩ := h.kept hbegin hkept hcandidates
  have hsteadfast : Steadfast out journal.stops fun listed =>
      ofListed catalog folder listed nodes rounds timeout interval journal :=
    fun hfew h => h.sound_of_new hout.unstopped hstopped hready hfew
  obtain ⟨rfl, -⟩ := (h.sound_of_new hout hstopped hready hfew).eq_of_told htold
  obtain ⟨j, hresume, hposts, hstill⟩ := htold.resume
  simp only [Line.still, Prod.mk.injEq] at hstill
  obtain ⟨-, hdisk, -, -, hflushCalls, hstops, -⟩ := hstill
  obtain ⟨last, hrun, hended, hfolder⟩ := h.exists_ended hout hstopped hready hfew hresume rfl hdisk
  -- The twin comes to its end where this one is told to stop.
  have hretraced := h.retraced hout hsteadfast
    (fun h => h.sound_of_new hout hstopped hready hfew) hbegin (exists_begun_twin hbegin)
  obtain ⟨cut, entries', job', hcut, hreaches, htally, hsent⟩ :=
    hretraced.exists_cut hout hsteadfast hfew htold
  have hless := Nat.lt_of_le_of_lt hcut.listedCount_le hfew
  have hgoing : job'.interrupted = false := (hsteadfast hless hreaches).going.interrupted
  obtain ⟨last', hrun', hended', hfolder'⟩ :=
    hreaches.exists_ended hout.unstopped hstopped hready hless rfl rfl rfl
  have hsame : last'.task.tally = last.task.tally :=
    hended'.tally.trans (htally.trans hended.tally.symm)
  refine ⟨last, hrun, hended.interrupted, hended.completed, hended.stops.trans hstops,
    ⟨begun, entries, p, hbegin, h, hwork, htold⟩, hended.posts.trans hposts, ?_, hended.saved,
    cut, last', hcut, hrun', ?_, ?_, hsame, ?_⟩
  · rw [hended.flushCalls]
    exact congrArg (· + 1) hflushCalls
  · rw [hended'.completed, hgoing]
    rfl
  · exact hended'.posts.trans (hsent.trans (hended.posts.trans hposts).symm)
  · have hsaved := hended'.saved
    rw [hsame, hfolder'] at hsaved
    rw [hfolder]
    exact hsaved.get?_eq (hfolder ▸ hended.saved)

/-- A resolution that is told to stop keeps exactly the candidates before. When no question and no flush
fails, it ends as a resolution of the candidates that come first does which nobody tells to stop, and after
it has noticed it sends nothing and writes its files once. It is complete exactly when no answer that it
asked for was to stop. -/
theorem interruption_keeps_candidates_before (hout : Unhindered out) (catalog : List Definition)
    (folder : Folder) (listed : List (String × List String)) (nodes : List (String × Json)) (rounds : Int)
    (timeout : Float) (interval : α) (journal : Journal α) (hstopped : journal.stopped = false)
    (hready : Snapshot.Ready journal.disk folder.path ResolutionTally.fileNames)
    (hfew : listedCount listed < 2 ^ 64) :
    let start := fun listed => ofListed catalog folder listed nodes rounds timeout interval journal
    ∃ last, (run out).go (start listed) = (.ok (), last) ∧
      (last.completed = true ↔
        ∀ k, journal.stops ≤ k → k < last.journal.stops → out.stop k = false) ∧
      last.completed = !last.interrupted ∧
      (last.interrupted = true → ∃ noticed, Interrupted out start listed noticed last) := by
  intro start
  obtain ⟨begun, hbegin, hbegun⟩ :=
    exists_begun out catalog folder listed nodes rounds timeout interval hstopped hready
  have hfirst : Reaches out (start listed) listed [] (.between listed begun) := .begun hbegin
  obtain ⟨entries, p, h, hsound, ⟨job, rfl⟩ | ⟨noticed, htold⟩⟩ :=
    hfirst.exists_end hout hfew hbegun
  · -- It comes to the end of its candidates.
    have hgoing : job.interrupted = false := hsound.going.interrupted
    obtain ⟨last, hrun, hended, -⟩ := h.exists_ended hout hstopped hready hfew rfl rfl rfl
    have hinterrupted := hended.interrupted.trans hgoing
    have hcompleted : last.completed = true := by
      rw [hended.completed, hgoing]
      rfl
    refine ⟨last, hrun, ⟨fun _ => ?_, fun _ => hcompleted⟩, ?_, fun h => ?_⟩
    · rw [hended.stops]
      exact hsound.untold.answers
    · rw [hcompleted, hinterrupted]
      rfl
    · cases hinterrupted.symm.trans h
  · obtain ⟨last, hrun, hinterrupted, hcompleted, hstops, hend⟩ :=
      h.exists_interrupted hout hstopped hready hfew htold
    refine ⟨last, hrun, ⟨fun h => ?_, fun huntold => ?_⟩, ?_, fun _ => ⟨noticed, hend⟩⟩
    · cases hcompleted.symm.trans h
    · -- The answer to the last question was to stop.
      have hlast := huntold p.job.journal.stops hsound.untold.le (hstops ▸ Nat.lt_succ_self _)
      cases (hsound.eq_of_told htold).2.symm.trans hlast
    · rw [hcompleted, hinterrupted]
      rfl

end New

def stoppedAtThird : Outside Rat :=
  { oneOfFive with stop := fun n => n == 2 }

theorem interruption_keeps_candidates_before_second :
    ∃ noticed last, (run stoppedAtThird).go startOnThreeChains = (.ok (), last) ∧
      last.interrupted = true ∧ last.completed = false ∧ last.task.tally.processed = 1 ∧
      Interrupted stoppedAtThird (fun listed => ofListed Catalog.builtIn ⟨["out"], "out"⟩ listed
        [("1", .str "http://rpc"), ("x", .str "http://rpc")] 1 30 0 { clock := 0 }) onThreeChains noticed
        last := by
  have hmarks : ((run stoppedAtThird).go startOnThreeChains).2.interrupted = true ∧
      ((run stoppedAtThird).go startOnThreeChains).2.task.tally.processed = 1 := by decide +kernel
  have hout : Unhindered stoppedAtThird := ⟨fun _ => rfl, fun _ => rfl⟩
  obtain ⟨last, hrun, -, hcompleted, hends⟩ :=
    interruption_keeps_candidates_before hout Catalog.builtIn ⟨["out"], "out"⟩ onThreeChains
      [("1", .str "http://rpc"), ("x", .str "http://rpc")] 1 30 0 { clock := 0 } rfl
      (Snapshot.ready_empty (by decide) (by decide)) (by decide)
  change (run stoppedAtThird).go startOnThreeChains = (.ok (), last) at hrun
  rw [hrun] at hmarks
  obtain ⟨hinterrupted, hprocessed⟩ := hmarks
  obtain ⟨noticed, h⟩ := hends hinterrupted
  exact ⟨noticed, last, hrun, hinterrupted, by rw [hcompleted, hinterrupted]; rfl, hprocessed, h⟩

end Resolve

end ProxyCensus
