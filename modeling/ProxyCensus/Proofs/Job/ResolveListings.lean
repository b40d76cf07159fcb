import ProxyCensus.Proofs.Job.Accounts
import ProxyCensus.Proofs.Job.ResolveAlike

/-!
# Listings that come to the same

Two resolutions are compared that list the same chains, but not the same addresses. Main statement: they
agree in all but their candidates, the progress, the messages, the questions to the corpus and how often
they ask whether to stop, when under every chain that has a node and a number the second one lists what
the first one lists, each candidate in a spelling under which the same is found, and in between
candidates that are not found.
-/

namespace ProxyCensus.Resolve

variable {α : Type}

def itemsOf (v : Json) : List Json :=
  (listed? v).getD []

def itemCount (candidates : List (String × Json)) : Nat :=
  (candidates.map fun e => (itemsOf e.2).length).sum

theorem itemCount_listing (listed : List (String × List String)) :
    itemCount (listing listed) = listedCount listed := by
  simp [itemCount, itemsOf, listing, listedCount, listed?, Function.comp_def]

theorem totalListed_eq_ok {candidates : List (String × Json)}
    (h : ∀ e ∈ candidates, listed? e.2 ≠ none) :
    totalListed candidates = .ok (itemCount candidates) := by
  induction candidates with
  | nil => rfl
  | cons e rest ih =>
    obtain ⟨he, hrest⟩ := List.forall_mem_cons.1 h
    obtain ⟨items, hitems⟩ := Option.ne_none_iff_exists'.1 he
    rw [totalListed, hitems, itemCount, List.map_cons, List.sum_cons, itemsOf, hitems, Option.getD_some]
    dsimp only
    rw [ih hrest]
    rfl

theorem totalListed_eq_error {candidates : List (String × Json)}
    (h : ∃ e ∈ candidates, listed? e.2 = none) :
    totalListed candidates = .error .wrongKind := by
  induction candidates with
  | nil =>
    obtain ⟨e, he, -⟩ := h
    cases he
  | cons e rest ih =>
    rw [totalListed]
    cases hitems : listed? e.2 with
    | none => rfl
    | some items =>
      obtain ⟨e', he', hnone⟩ := h
      rcases List.mem_cons.1 he' with rfl | he'
      · cases hitems.symm.trans hnone
      · dsimp only
        rw [ih ⟨e', he', hnone⟩]
        rfl

def ofCandidates (catalog : List Definition) (folder : Folder) (candidates : List (String × Json))
    (nodes : List (String × Json)) (rounds : Int) (timeout : Float) (interval : α)
    (journal : Journal α) : Resolve α where
  task := { catalog, folder, candidates, nodes, rounds, timeout, interval }
  journal := journal

/-- The addresses of a chain, and the same addresses with others put in between. A candidate may be
spelled in another way under which the same is found; one that is put in between is not found. -/
inductive Matched (out : Outside α) (catalog : List Definition) (chain : String) (chainId : Int) :
    List Json → List Json → Prop where
  | nil : Matched out catalog chain chainId [] []
  | keep {items items' : List Json} {address address' : String}
    (hsame : ∀ record found, Found out catalog chain chainId address record found ↔
      Found out catalog chain chainId address' record found)
    (h : Matched out catalog chain chainId items items') :
    Matched out catalog chain chainId (.str address :: items) (.str address' :: items')
  | insert {items items' : List Json} {address : String}
    (hnone : ∀ record found, ¬Found out catalog chain chainId address record found)
    (h : Matched out catalog chain chainId items items') :
    Matched out catalog chain chainId items (.str address :: items')

/-- The same chain, with addresses that match if it has a node and a number. -/
structure MatchedEntry (out : Outside α) (catalog : List Definition) (nodes : List (String × Json))
    (e e' : String × Json) : Prop where
  chain : e'.1 = e.1
  listed : listed? e.2 ≠ none ∧ listed? e'.2 ≠ none
  items : ∀ chainId, numberOf? nodes e.1 = some chainId →
    Matched out catalog e.1 chainId (itemsOf e.2) (itemsOf e'.2)

/-- Two resolutions that agree and go on, the one with room for `n` contracts among the `total` that it
counts and the other one with room for `n'` among `total'`. -/
structure Abreast (catalog : List Definition) (nodes : List (String × Json)) (total n total' n' : Nat)
    (job job' : Resolve α) : Prop where
  bare : job.bare = job'.bare
  catalog : job.task.catalog = catalog
  nodes : job.task.nodes = nodes
  going : Going total n job
  going' : Going total' n' job'

variable {out : Outside α} {catalog : List Definition} {chain address : String} {chainId : Int}
  {nodes : List (String × Json)} {total n total' n' : Nat} {job job' : Resolve α} {v v' : Visit α}

theorem Abreast.asked (h : Abreast catalog nodes total n total' n' job job') :
    Abreast catalog nodes total n total' n' (asked job) (asked job') :=
  ⟨h.bare, h.catalog, h.nodes, h.going.asked, h.going'.asked⟩

theorem Abreast.setup (h : Abreast catalog nodes total n total' n' job job') :
    job'.task.catalog = catalog ∧ job'.task.nodes = nodes ∧ job'.task.rounds = job.task.rounds ∧
      job'.task.timeout = job.task.timeout ∧ job'.task.interval = job.task.interval := by
  obtain ⟨hcatalog, hnodes, hsame⟩ := setup_of_bare h.bare
  exact ⟨hcatalog.trans h.catalog, hnodes.trans h.nodes, hsame⟩

theorem Abreast.enter (h : Abreast catalog nodes total n total' n' job job') (chain : String) :
    Abreast catalog nodes total n total' n' (entered chain job) (entered chain job') :=
  ⟨bare_entered h.bare chain, h.catalog, h.nodes, { h.going with }, { h.going' with }⟩

theorem Abreast.go_close (h : Abreast catalog nodes total n total' n' v.job v'.job)
    (hclient : v.client = v'.client) :
    ∃ w w', (Visit.asking Line.close).go v = (.ok (), w) ∧
      (Visit.asking Line.close).go v' = (.ok (), w') ∧
      Abreast catalog nodes total n total' n' w.job w'.job := by
  obtain ⟨l, hgo, hsetting⟩ := Resolve.go_close v
  obtain ⟨l', hgo', hsetting'⟩ := Resolve.go_close v'
  have hend := (alike_asking Line.alike_close v v' (congrArg₂ Visit.mk hclient h.bare)).2
  rw [hgo, hgo'] at hend
  exact ⟨_, _, hgo, hgo', (Visit.exists_of_bare hend).1, h.catalog, h.nodes,
    h.going.journal (Line.stopped_of_setting hsetting).1,
    h.going'.journal (Line.stopped_of_setting hsetting').1⟩

theorem Going.flush (h : Going total n job) (out : Outside α) :
    Going total n ((Resolve.flush out).go job).2 := by
  obtain ⟨r, disk, flushes, flushed, logs, hgo⟩ := Attempt.go_flush_cases out job.task.folder
    job.task.tally.artifacts job.journal
  unfold Resolve.flush Job.writing
  rw [Act.go_bind, Act.go_state]
  dsimp only
  rw [Act.go_on, hgo]
  exact h.journal rfl

theorem Abreast.flush (h : Abreast catalog nodes total n total' n' job job') (out : Outside α) :
    ((Resolve.flush out).go job).1 = ((Resolve.flush out).go job').1 ∧
      Abreast catalog nodes total n total' n' ((Resolve.flush out).go job).2
        ((Resolve.flush out).go job').2 := by
  obtain ⟨hresult, hend⟩ := alike_flush rfl job job' h.bare
  have htask : ((Resolve.flush out).go job).2.task = job.task :=
    congrArg Prod.fst (flush_keeps out job)
  exact ⟨hresult, hend, htask ▸ h.catalog, htask ▸ h.nodes, h.going.flush out, h.going'.flush out⟩

variable [Seconds α]

theorem Dealt.setup {v w : Visit α} (h : Dealt out chain chainId address v w) :
    w.job.task.catalog = v.job.task.catalog ∧ w.job.task.nodes = v.job.task.nodes := by
  have hsame : ∀ {v w : Visit α}, w.bare = v.bare →
      w.job.task.catalog = v.job.task.catalog ∧ w.job.task.nodes = v.job.task.nodes := fun h =>
    ⟨congrArg (·.job.task.catalog) h, congrArg (·.job.task.nodes) h⟩
  cases h with
  | aside _ h => exact hsame h
  | @analyzed record found _ l _ h =>
    obtain ⟨hcatalog, hnodes⟩ := hsame h
    rw [hcatalog, hnodes]
    unfold Visit.afterAnalysis
    cases ((Analysis.resolve out (some chainId) record found).go l).1 <;> exact ⟨rfl, rfl⟩

/-- A candidate is dealt with in the same way under a spelling under which the same is found. -/
theorem Dealt.respell {v w : Visit α} (address' : String) (h : Dealt out chain chainId address v w)
    (hsame : ∀ record found, Found out v.job.task.catalog chain chainId address record found ↔
      Found out v.job.task.catalog chain chainId address' record found) :
    Dealt out chain chainId address' v w := by
  cases h with
  | aside hnone h => exact .aside (fun record found hfound => hnone record found ((hsame _ _).2 hfound)) h
  | analyzed hfound hl h => exact .analyzed ((hsame _ _).1 hfound) hl h

/-- What is made of the addresses of a chain does not depend on how they are spelled, nor on those that
are put in between. -/
theorem Abreast.go_resolveItems (hcalm : Calm out) {items items' : List Json}
    (hmatched : Matched out catalog chain chainId items items') :
    ∀ {v v' : Visit α}, v.client = v'.client →
      Abreast catalog nodes total (items.length + n) total' (items'.length + n') v.job v'.job →
      ∃ w w', (resolveAddresses out chain chainId items).go v = (.ok false, w) ∧
        (resolveAddresses out chain chainId items').go v' = (.ok false, w') ∧
        w.client = w'.client ∧ Abreast catalog nodes total n total' n' w.job w'.job := by
  induction hmatched with
  | nil =>
    intro v v' hclient h
    rw [List.length_nil, Nat.zero_add, Nat.zero_add] at h
    exact ⟨v, v', rfl, rfl, hclient, h⟩
  | @keep items items' address address' hsame _ ih =>
    intro v v' hclient h
    rw [List.length_cons, List.length_cons, Nat.add_comm items.length, Nat.add_comm items'.length,
      Nat.add_assoc, Nat.add_assoc] at h
    have hasked := h.asked
    obtain ⟨w, hgo, hgoing, hdealt⟩ :=
      hasked.going.go_resolveCandidate (v := ⟨v.client, _⟩) hcalm.undisturbed chain chainId address
    obtain ⟨w', hgo', hgoing', hdealt'⟩ :=
      hasked.going'.go_resolveCandidate (v := ⟨v'.client, _⟩) hcalm.undisturbed chain chainId address'
    have hcatalog' : v'.job.task.catalog = catalog := h.setup.1
    have hrespelled := hdealt'.respell address fun record found =>
      (hcatalog' ▸ hsame record found).symm
    have hbare := hdealt.bare_eq (Line.akin_bare rfl rfl) rfl hrespelled
      (congrArg₂ Visit.mk hclient hasked.bare)
    obtain ⟨hjob, hclient', -⟩ := Visit.exists_of_bare hbare
    obtain ⟨hcatalog, hnodes⟩ := hdealt.setup
    obtain ⟨z, z', hz, hz', hend⟩ := ih hclient' ⟨hjob, hcatalog.trans h.catalog, hnodes.trans h.nodes,
      hgoing, hgoing'⟩
    refine ⟨z, z', ?_, ?_, hend⟩
    · rw [go_resolveAddresses_cons (go_working (h.going.go_shouldStop hcalm.untold)) hgo, hz]
    · rw [go_resolveAddresses_cons (go_working (h.going'.go_shouldStop hcalm.untold)) hgo', hz']
  | @insert items items' address hnone _ ih =>
    intro v v' hclient h
    rw [List.length_cons, Nat.add_comm items'.length, Nat.add_assoc] at h
    obtain ⟨w', hgo', hgoing', hdealt'⟩ :=
      h.going'.asked.go_resolveCandidate (v := ⟨v'.client, _⟩) hcalm.undisturbed chain chainId address
    have hcatalog' : v'.job.task.catalog = catalog := h.setup.1
    have hbare := hdealt'.bare_eq_of_not_found (hcatalog' ▸ hnone)
    obtain ⟨hjob, hclient', -⟩ := Visit.exists_of_bare hbare
    obtain ⟨z, z', hz, hz', hend⟩ := ih (hclient.trans hclient'.symm)
      ⟨h.bare.trans hjob.symm, h.catalog, h.nodes, h.going, hgoing'⟩
    refine ⟨z, z', hz, ?_, hend⟩
    rw [go_resolveAddresses_cons (go_working (h.going'.go_shouldStop hcalm.untold)) hgo', hz']

theorem go_resolveChain_of_through {client : Client α} {items : List Json} {w : Visit α}
    (hnumber : numberOf? job.task.nodes chain = some chainId)
    (hclient : Client.ofUrl? ((Json.lookup? job.task.nodes chain).getD .null) job.task.rounds
      job.task.timeout job.task.interval = .ok client)
    (hv : (resolveAddresses out chain chainId items).go ⟨client, entered chain job⟩ = (.ok false, v))
    (hw : (Visit.asking Line.close).go v = (.ok (), w)) :
    (resolveChain out chain items).go job = Act.go (do flush out; return false) w.job :=
  go_resolveChain_of_some hnumber rfl hclient items (Act.go_andFinally hv hw)

/-- A chain is worked on alike when its addresses match: it is passed over or its files are written, and
only that may fail. -/
theorem Abreast.go_resolveEntry (hcalm : Calm out) {e e' : String × Json}
    (hmatched : MatchedEntry out catalog nodes e e')
    (h : Abreast catalog nodes total ((itemsOf e.2).length + n) total'
      ((itemsOf e'.2).length + n') job job') :
    ∃ r w w', (resolveChain out e.1 (itemsOf e.2)).go job = (r, w) ∧
      (resolveChain out e'.1 (itemsOf e'.2)).go job' = (r, w') ∧
      (r = .ok false ∨ ∃ f, r = .error f) ∧ Abreast catalog nodes total n total' n' w w' := by
  obtain ⟨hcatalog', hnodes', hrounds, htimeout, hinterval⟩ := h.setup
  have hroom := h.going.room
  have hroom' := h.going'.room
  rw [hmatched.chain]
  cases hnumber : numberOf? nodes e.1 with
  | none =>
    obtain ⟨logs, hgo⟩ := go_resolveChain_of_unnumbered out (h.nodes.symm ▸ hnumber) h.going.bounded
      (itemsOf e.2) (by omega)
    obtain ⟨logs', hgo'⟩ := go_resolveChain_of_unnumbered out (hnodes'.symm ▸ hnumber) h.going'.bounded
      (itemsOf e'.2) (by omega)
    exact ⟨.ok false, _, _, hgo, hgo', .inl rfl, h.bare, h.catalog, h.nodes,
      (h.going.add _ true job.task.tally).journal rfl,
      (h.going'.add _ true job'.task.tally).journal rfl⟩
  | some chainId =>
    obtain ⟨client, hclient⟩ := Client.exists_ofUrl? (isSet_of_numberOf? hnumber) job.task.rounds
      job.task.timeout job.task.interval
    have hclient₀ : (⟨client, entered e.1 job⟩ : Visit α).client =
        (⟨client, entered e.1 job'⟩ : Visit α).client := rfl
    obtain ⟨v, v', hv, hv', hclients, hvisited⟩ :=
      Abreast.go_resolveItems hcalm (hmatched.items chainId hnumber) hclient₀ (h.enter e.1)
    obtain ⟨w, w', hw, hw', hclosed⟩ := hvisited.go_close hclients
    obtain ⟨hresult, hflushed⟩ := hclosed.flush out
    have hclient' : Client.ofUrl? ((Json.lookup? job'.task.nodes e.1).getD .null) job'.task.rounds
        job'.task.timeout job'.task.interval = .ok client := by
      rw [hnodes', hrounds, htimeout, hinterval, hclient]
    have hgo := go_resolveChain_of_through (h.nodes.symm ▸ hnumber) (h.nodes.symm ▸ hclient) hv hw
    have hgo' := go_resolveChain_of_through (hnodes'.symm ▸ hnumber) hclient' hv' hw'
    rw [Act.go_bind] at hgo hgo'
    generalize (Resolve.flush out).go w.job = ended at hresult hflushed hgo
    generalize (Resolve.flush out).go w'.job = ended' at hresult hflushed hgo'
    obtain ⟨r, job₁⟩ := ended
    obtain ⟨r', job₁'⟩ := ended'
    obtain rfl : r = r' := hresult
    cases r with
    | ok _ => exact ⟨.ok false, job₁, job₁', hgo, hgo', .inl rfl, hflushed⟩
    | error f => exact ⟨.error f, job₁, job₁', hgo, hgo', .inr ⟨f, rfl⟩, hflushed⟩

theorem go_resolveChains_of_asked {job₁ : Resolve α}
    (hgoing : (Job.shouldStop out).go job = (.ok false, job₁))
    (e : String × Json) (rest : List (String × Json)) :
    (resolveChains out (e :: rest)).go job = Act.go (do
      if ← resolveChain out e.1 (itemsOf e.2) then return
      resolveChains out rest) job₁ := by
  change Act.go (Job.shouldStop out >>= _) job = _
  rw [Act.go_bind, hgoing]
  rfl

/-- The chains are worked on alike when their addresses match. -/
theorem Abreast.go_resolveEntries (hcalm : Calm out) {candidates candidates' : List (String × Json)}
    (hmatched : List.Forall₂ (MatchedEntry out catalog nodes) candidates candidates') :
    ∀ {job job' : Resolve α},
      Abreast catalog nodes total (itemCount candidates) total' (itemCount candidates') job job' →
      ∃ r w w', (resolveChains out candidates).go job = (r, w) ∧
        (resolveChains out candidates').go job' = (r, w') ∧
        Abreast catalog nodes total 0 total' 0 w w' := by
  induction hmatched with
  | nil => exact fun h => ⟨.ok (), _, _, rfl, rfl, h⟩
  | @cons e e' rest rest' he _ ih =>
    intro job job' h
    obtain ⟨r, w, w', hgo, hgo', hr, hworked⟩ := Abreast.go_resolveEntry hcalm he h.asked
    have hasked := h.going.go_shouldStop hcalm.untold
    have hasked' := h.going'.go_shouldStop hcalm.untold
    rw [go_resolveChains_of_asked hasked, go_resolveChains_of_asked hasked', Act.go_bind, hgo, Act.go_bind,
      hgo']
    rcases hr with rfl | ⟨f, rfl⟩
    · exact ih hworked
    · exact ⟨.error f, w, w', rfl, rfl, hworked.bare, hworked.catalog, hworked.nodes,
        hworked.going.mono (Nat.zero_le _), hworked.going'.mono (Nat.zero_le _)⟩

theorem go_phases {start begun worked : Resolve α} {r : Except Failure Unit}
    (hbegin : (begin out).go start = (.ok (), begun)) (hwork : (work out).go begun = (r, worked)) :
    Act.go (do begin out; work out; Job.settle) start = Act.go (do Act.lift r; Job.settle) worked := by
  rw [Act.go_bind, hbegin]
  change Act.go (work out >>= fun _ => Job.settle) begun = _
  rw [Act.go_bind, hwork, Act.go_bind, Act.go_lift]

theorem go_work {begun : Resolve α} {candidates : List (String × Json)}
    (h : begun.task.candidates = candidates) :
    (work out).go begun = (resolveChains out candidates).go begun := by
  unfold work
  rw [Act.go_bind, Act.go_state]
  dsimp only
  rw [h]

omit [Seconds α] in
theorem Abreast.settle (h : Abreast catalog nodes total n total' n' job job')
    (r : Except Failure Unit) :
    ∃ settled settled', Act.go (do Act.lift r; Job.settle) job = (r, settled) ∧
      Act.go (do Act.lift r; Job.settle) job' = (r, settled') ∧
      Abreast catalog nodes total n total' n' settled settled' := by
  cases r with
  | error f => exact ⟨job, job', rfl, rfl, h⟩
  | ok _ =>
    refine ⟨_, _, rfl, rfl, ?_, h.catalog, h.nodes, { h.going with }, { h.going' with }⟩
    obtain ⟨_, _, _, _, _, _, _, rfl⟩ := exists_of_bare h.bare
    rfl

omit [Seconds α] in
theorem Going.of_begun (hbounded : job.task.progress.Bounded total)
    (hprocessed : job.task.progress.processed = 0) (hinterrupted : job.interrupted = false)
    (hstopped : job.journal.stopped = false) : Going total total job :=
  ⟨hbounded, by omega, hinterrupted, hstopped⟩

omit [Seconds α] in
theorem begin_abreast (out : Outside α) (catalog : List Definition) (folder : Folder)
    {candidates candidates' : List (String × Json)} (htotal : totalListed candidates = .ok total)
    (htotal' : totalListed candidates' = .ok total') (nodes : List (String × Json)) (rounds : Int)
    (timeout : Float) (interval : α) {journal : Journal α} (hstopped : journal.stopped = false) :
    ∃ begun begun',
      (begin out).go (ofCandidates catalog folder candidates nodes rounds timeout interval journal) =
        (.ok (), begun) ∧
      (begin out).go (ofCandidates catalog folder candidates' nodes rounds timeout interval journal) =
        (.ok (), begun') ∧
      begun.task.candidates = candidates ∧ begun'.task.candidates = candidates' ∧
      Abreast catalog nodes total total total' total' begun begun' := by
  have hgo := @go_begin α (ofCandidates catalog folder candidates nodes rounds timeout interval journal) _
    out htotal
  have hgo' := @go_begin α (ofCandidates catalog folder candidates' nodes rounds timeout interval journal) _
    out htotal'
  refine ⟨_, _, hgo.trans rfl, hgo'.trans rfl, rfl, rfl, rfl, rfl, rfl, ?_, ?_⟩
  · exact .of_begun ⟨rfl, rfl, Int.le_refl 0, Int.natCast_nonneg _⟩ rfl rfl hstopped
  · exact .of_begun ⟨rfl, rfl, Int.le_refl 0, Int.natCast_nonneg _⟩ rfl rfl hstopped

omit [Seconds α] in
theorem listed_of_matched {candidates candidates' : List (String × Json)}
    (h : List.Forall₂ (MatchedEntry out catalog nodes) candidates candidates') :
    (∀ e ∈ candidates, listed? e.2 ≠ none) ∧ ∀ e ∈ candidates', listed? e.2 ≠ none := by
  induction h with
  | nil => simp
  | cons he _ ih =>
    exact ⟨List.forall_mem_cons.2 ⟨he.listed.1, ih.1⟩, List.forall_mem_cons.2 ⟨he.listed.2, ih.2⟩⟩

omit [Seconds α] in
theorem exists_of_alike {x y : Except Failure Unit × Resolve α} (h : x.1 = y.1 ∧ x.2.bare = y.2.bare) :
    ∃ result last last', x = (result, last) ∧ y = (result, last') ∧ last.bare = last'.bare :=
  ⟨x.1, x.2, y.2, rfl, Prod.ext h.1.symm rfl, h.2⟩

/-- Resolutions whose candidates match run alike: they differ in their candidates, the progress, the
messages, the questions to the corpus and how often they ask whether to stop, and in nothing else. -/
theorem go_run_matched (hcalm : Calm out) (catalog : List Definition) (folder : Folder)
    {candidates candidates' : List (String × Json)} (nodes : List (String × Json)) (rounds : Int)
    (timeout : Float) (interval : α) {journal : Journal α} (hstopped : journal.stopped = false)
    (hmatched : List.Forall₂ (MatchedEntry out catalog nodes) candidates candidates')
    (hfew : itemCount candidates < 2 ^ 255) (hfew' : itemCount candidates' < 2 ^ 255) :
    ∃ result last last',
      (run out).go (ofCandidates catalog folder candidates nodes rounds timeout interval journal) =
        (result, last) ∧
      (run out).go (ofCandidates catalog folder candidates' nodes rounds timeout interval journal) =
        (result, last') ∧
      last.bare = last'.bare := by
  obtain ⟨hlisted, hlisted'⟩ := listed_of_matched hmatched
  obtain ⟨begun, begun', hbegin, hbegin', hcandidates, hcandidates', hbegun⟩ :=
    begin_abreast out catalog folder (totalListed_eq_ok hlisted) (totalListed_eq_ok hlisted') nodes rounds
      timeout interval hstopped
  obtain ⟨r, worked, worked', hwork, hwork', hworked⟩ := hbegun.go_resolveEntries hcalm hmatched
  obtain ⟨settled, settled', hsettle, hsettle', h⟩ := hworked.settle r
  have hended := (go_phases hbegin ((go_work hcandidates).trans hwork)).trans hsettle
  have hended' := (go_phases hbegin' ((go_work hcandidates').trans hwork')).trans hsettle'
  have hlast := finish_alike out h.bare (h.going.bounded.small hfew) (h.going'.bounded.small hfew')
  exact exists_of_alike (Act.Alike.andFinally hended hended' hlast)

end ProxyCensus.Resolve
