import ProxyCensus.Proofs.Job.InertCandidates
import ProxyCensus.Proofs.Job.ResolveThrough

/-!
# Candidates that cannot be asked for

Only a text can be asked for, and a file of candidates may list anything. Main statement: when no question
and no flush fails, a resolution that is not told to stop fails exactly when a value lists nothing, or when
something that is no text is listed under a chain that has a node and a number; every candidate that is a
text is at worst skipped with a message, and makes no difference to the others then.
-/

namespace ProxyCensus

theorem Tracked.track_adds {α : Type} (t : Tracked α) (count : Int) (skipped : Bool) :
    ((track count skipped).go t).2.progress = t.progress.add count skipped ∧
      ∃ more, ((track count skipped).go t).2.journal.logs.toList = t.journal.logs.toList ++ more := by
  unfold track
  rw [Act.go_bind, Act.go_state]
  dsimp only
  rw [Act.go_bind, Act.go_change]
  dsimp only
  rw [Act.go_bind, Act.go_state]
  dsimp only
  rw [Act.go_bind, Act.go_lift]
  rcases (t.progress.add count skipped).message? t.progress.processed with f | _ | message
  · exact ⟨rfl, [], (List.append_nil _).symm⟩
  · exact ⟨rfl, [], (List.append_nil _).symm⟩
  · exact ⟨rfl, [⟨.info, t.progress.logger, message⟩], Array.toList_push⟩

namespace Resolve

variable {α : Type}

/-- Something that is no text is listed. -/
def HoldsOther (items : List Json) : Prop :=
  ∃ item ∈ items, ∀ s, item ≠ .str s

/-- Something that is no text is listed under a chain that has a node and a number. -/
def Unaskable (nodes candidates : List (String × Json)) : Prop :=
  ∃ e ∈ candidates, numberOf? nodes e.1 ≠ none ∧ HoldsOther (itemsOf e.2)

structure Closable (total : Nat) (job : Resolve α) : Prop where
  fit : Fit job
  bounded : job.task.progress.Bounded total

/-- How a part of the work ends in whose way nothing comes, `bad` saying that something cannot be asked
for in it: it is through, it was told to stop, or it fails. -/
inductive Worked (out : Outside α) (nodes : List (String × Json)) (total n : Nat) (bad : Prop) :
    Except Failure Bool → Resolve α → Prop where
  | through {job : Resolve α} (hgoing : Going total n job) (hfit : Fit job)
    (hnodes : job.task.nodes = nodes)
    (hgood : ¬bad) : Worked out nodes total n bad (.ok false) job
  | told {job : Resolve α} (h : Closable total job) (hstop : ∃ k, out.stop k = true) :
    Worked out nodes total n bad (.ok true) job
  | failed {job : Resolve α} (h : Closable total job) (hbad : bad) :
    Worked out nodes total n bad (.error .noOperation) job

variable {out : Outside α} {catalog : List Definition} {nodes : List (String × Json)} {total n : Nat}
  {job : Resolve α} {v : Visit α} {chain address : String} {chainId : Int} {r : Except Failure Bool}
  {bad bad' : Prop}

theorem Worked.congr (h : Worked out nodes total n bad r job) (hbad : bad ↔ bad') :
    Worked out nodes total n bad' r job := by
  cases h with
  | through hgoing hfit hnodes hgood => exact .through hgoing hfit hnodes (mt hbad.2 hgood)
  | told h hstop => exact .told h hstop
  | failed h hbad' => exact .failed h (hbad.1 hbad')

theorem Going.closable_of_told {noticed : Resolve α} (h : Going total n job) (hfit : Fit job)
    (hgo : (Job.shouldStop out).go job = (.ok true, noticed)) :
    Closable total noticed ∧ ∃ k, out.stop k = true := by
  obtain ⟨rfl, hstop⟩ := h.eq_of_told hgo
  exact ⟨⟨⟨hfit.within, hfit.ready⟩, h.bounded⟩, _, hstop⟩

theorem holdsOther_cons_str (address : String) (items : List Json) :
    HoldsOther (.str address :: items) ↔ HoldsOther items := by
  constructor
  · rintro ⟨item, hitem, hother⟩
    rcases List.mem_cons.1 hitem with rfl | hitem
    · exact absurd rfl (hother address)
    · exact ⟨item, hitem, hother⟩
  · rintro ⟨item, hitem, hother⟩
    exact ⟨item, List.mem_cons_of_mem _ hitem, hother⟩

variable [Seconds α]

/-- What is no text cannot be asked for, and nothing else is done with it. -/
theorem go_resolveCandidate_of_other {item : Json} (h : ∀ s, item ≠ .str s) (out : Outside α)
    (chain : String) (chainId : Int) (v : Visit α) :
    (resolveCandidate out chain chainId item).go v = (.error .noOperation, v) := by
  cases item with
  | str s => exact absurd rfl (h s)
  | _ => rfl

/-- What is listed under a chain is dealt with one by one. -/
theorem Going.worked_items (hundisturbed : ∀ n, out.disturbance n = none) (chain : String) (chainId : Int)
    (items : List Json) :
    ∀ {v : Visit α}, Going total (items.length + n) v.job → Fit v.job → v.job.task.nodes = nodes →
      ∃ r w, (resolveAddresses out chain chainId items).go v = (r, w) ∧
        Worked out nodes total n (HoldsOther items) r w.job := by
  induction items with
  | nil =>
    intro v h hfit hnodes
    rw [List.length_nil, Nat.zero_add] at h
    exact ⟨.ok false, v, rfl, .through h hfit hnodes (fun ⟨_, hitem, _⟩ => nomatch hitem)⟩
  | cons item rest ih =>
    intro v h hfit hnodes
    rcases h.told_or_asked out with ⟨noticed, hgo⟩ | hgo
    · obtain ⟨hclosable, hstop⟩ := h.closable_of_told hfit hgo
      exact ⟨.ok true, _, go_resolveAddresses_of_stop (go_working hgo) rest item, .told hclosable hstop⟩
    have hasked := h.asked
    have hfit' : Fit (Resolve.asked v.job) := hfit.journal rfl
    by_cases hother : ∀ s, item ≠ .str s
    · refine ⟨.error .noOperation, ⟨v.client, Resolve.asked v.job⟩, ?_,
        .failed ⟨hfit', h.bounded⟩ ⟨item, List.mem_cons_self, hother⟩⟩
      change Act.go (Visit.working (Job.shouldStop out) >>= _) v = _
      rw [Act.go_bind, go_working hgo]
      change Act.go (resolveCandidate out chain chainId item >>= _) _ = _
      rw [Act.go_bind, go_resolveCandidate_of_other hother]
    · obtain ⟨address, rfl⟩ : ∃ address, item = .str address := by simpa using hother
      rw [List.length_cons, Nat.add_comm rest.length, Nat.add_assoc] at hasked
      have hroom := hasked.room
      change v.job.task.progress.processed + _ ≤ _ at hroom
      obtain ⟨w, hw, hgoing, hdealt⟩ :=
        hasked.go_resolveCandidate (v := ⟨v.client, _⟩) hundisturbed chain chainId address
      obtain ⟨hfit, -⟩ := hfit'.candidate (v := ⟨v.client, _⟩) hasked.bounded
        (by change v.job.task.progress.processed < _; omega) hundisturbed hw
      obtain ⟨r, z, hz, hworked⟩ := ih hgoing hfit (hdealt.setup.2.trans hnodes)
      exact ⟨r, z, (go_resolveAddresses_cons (go_working hgo) hw rest).trans hz,
        hworked.congr (holdsOther_cons_str address rest).symm⟩

/-- A chain is passed over, or visited and left. -/
theorem Going.worked_chain (hout : Unhindered out) (htotal : total < 2 ^ 64) (chain : String)
    {items : List Json} (h : Going total (items.length + n) job) (hfit : Fit job)
    (hnodes : job.task.nodes = nodes) :
    ∃ r w, (resolveChain out chain items).go job = (r, w) ∧
      Worked out nodes total n (numberOf? nodes chain ≠ none ∧ HoldsOther items) r w := by
  subst hnodes
  have hroom := h.room
  cases hnumber : numberOf? job.task.nodes chain with
  | none =>
    obtain ⟨logs, hgo⟩ := go_resolveChain_of_unnumbered out hnumber h.bounded items (by omega)
    exact ⟨.ok false, _, hgo, .through ((h.add items.length true job.task.tally).journal rfl)
      ((hfit.pass items.length h.bounded.nonneg true).journal rfl) rfl (fun h => h.1 rfl)⟩
  | some chainId =>
    obtain ⟨client, hclient⟩ := Client.exists_ofUrl? (isSet_of_numberOf? hnumber) job.task.rounds
      job.task.timeout job.task.interval
    have hentered : Going total (items.length + n) (⟨client, entered chain job⟩ : Visit α).job :=
      { h with }
    have hfit' : Fit (⟨client, entered chain job⟩ : Visit α).job :=
      (hfit.enter (int?_of_numberOf? hnumber)).journal rfl
    obtain ⟨r, v, hv, hworked⟩ := hentered.worked_items hout.undisturbed chain chainId items hfit' rfl
    obtain ⟨l, hclose, hsetting⟩ := go_close v
    obtain ⟨hstopped, hdisk⟩ := Line.stopped_of_setting hsetting
    have hended := Act.go_andFinally hv hclose
    obtain ⟨client', left⟩ := v
    dsimp only at hworked hstopped hdisk
    have hclosed : Closable total left → Closable total { left with journal := l.journal } :=
      fun h => ⟨h.fit.journal hdisk, h.bounded⟩
    cases hworked with
    | through hgoing hfit hnodes hgood =>
      obtain ⟨d, hflush, hsaved⟩ :=
        (hfit.journal hdisk).go_flush hout.accepted hgoing.bounded htotal
      rw [go_resolveChain_of_through hnumber hclient hv hclose, Act.go_bind, hflush]
      exact ⟨_, _, rfl, .through (hgoing.journal hstopped) hsaved hnodes fun h => hgood h.2⟩
    | told h hstop =>
      rw [go_resolveChain_of_some hnumber rfl hclient items hended]
      exact ⟨_, _, rfl, .told (hclosed h) hstop⟩
    | failed h hother =>
      rw [go_resolveChain_of_some hnumber rfl hclient items hended]
      exact ⟨_, _, rfl, .failed (hclosed h) ⟨Option.some_ne_none _, hother⟩⟩

/-- How the work on some chains ends: it is through, it was told to stop, or it fails. -/
structure WorkedThrough (out : Outside α) (nodes : List (String × Json)) (total : Nat)
    (candidates : List (String × Json)) (r : Except Failure Unit) (job : Resolve α) : Prop where
  closable : Closable total job
  ending : r = .ok () ∧ (¬Unaskable nodes candidates ∨ ∃ k, out.stop k = true) ∨
    r = .error .noOperation ∧ Unaskable nodes candidates

omit [Seconds α] in
theorem unaskable_cons (nodes : List (String × Json)) (e : String × Json) (rest : List (String × Json)) :
    Unaskable nodes (e :: rest) ↔
      (numberOf? nodes e.1 ≠ none ∧ HoldsOther (itemsOf e.2)) ∨ Unaskable nodes rest := by
  simp [Unaskable]

theorem Going.worked_chains (hout : Unhindered out) (htotal : total < 2 ^ 64)
    (candidates : List (String × Json)) :
    ∀ {job : Resolve α}, Going total (itemCount candidates) job → Fit job → job.task.nodes = nodes →
      ∃ r w, (resolveChains out candidates).go job = (r, w) ∧
        WorkedThrough out nodes total candidates r w := by
  induction candidates with
  | nil =>
    intro job h hfit _
    exact ⟨.ok (), job, rfl, ⟨hfit, h.bounded⟩, .inl ⟨rfl, .inl fun ⟨_, he, _⟩ => nomatch he⟩⟩
  | cons e rest ih =>
    intro job h hfit hnodes
    rcases h.told_or_asked out with ⟨noticed, hgo⟩ | hgo
    · obtain ⟨hclosable, hstop⟩ := h.closable_of_told hfit hgo
      refine ⟨.ok (), noticed, ?_, hclosable, .inl ⟨rfl, .inr hstop⟩⟩
      change Act.go (Job.shouldStop out >>= _) job = _
      rw [Act.go_bind, hgo]
      rfl
    · obtain ⟨r, w, hw, hworked⟩ := Going.worked_chain hout htotal e.1 h.asked (hfit.journal rfl) hnodes
      rw [go_resolveChains_of_asked hgo, Act.go_bind, hw]
      cases hworked with
      | through hgoing hfit hnodes hgood =>
        obtain ⟨r, z, hz, hclosable, hending⟩ := ih hgoing hfit hnodes
        refine ⟨r, z, hz, hclosable, ?_⟩
        rw [unaskable_cons, or_iff_right hgood]
        exact hending
      | told hclosable hstop => exact ⟨_, _, rfl, hclosable, .inl ⟨rfl, .inr hstop⟩⟩
      | failed hclosable hbad =>
        exact ⟨_, _, rfl, hclosable, .inr ⟨rfl, (unaskable_cons _ _ _).2 (.inl hbad)⟩⟩

omit [Seconds α] in
theorem exists_begun_of_listed (out : Outside α) (catalog : List Definition) (folder : Folder)
    {candidates : List (String × Json)} (hlisted : ∀ e ∈ candidates, listed? e.2 ≠ none)
    (nodes : List (String × Json)) (rounds : Int) (timeout : Float) (interval : α) {journal : Journal α}
    (hstopped : journal.stopped = false)
    (hready : Snapshot.Ready journal.disk folder.path ResolutionTally.fileNames) :
    ∃ begun,
      (begin out).go (ofCandidates catalog folder candidates nodes rounds timeout interval journal) =
        (.ok (), begun) ∧
      begun.task.candidates = candidates ∧ begun.task.nodes = nodes ∧
      Going (itemCount candidates) (itemCount candidates) begun ∧ Fit begun := by
  have hgo := @go_begin α (ofCandidates catalog folder candidates nodes rounds timeout interval journal) _
    out (totalListed_eq_ok hlisted)
  exact ⟨_, hgo.trans rfl, rfl, rfl,
    .of_begun ⟨rfl, rfl, Int.le_refl 0, Int.natCast_nonneg _⟩ rfl rfl hstopped,
    ResolutionTally.within_empty, hready⟩

theorem exists_run_of_listed (hout : Unhindered out) (catalog : List Definition) (folder : Folder)
    {candidates : List (String × Json)} (hlisted : ∀ e ∈ candidates, listed? e.2 ≠ none)
    (nodes : List (String × Json)) (rounds : Int) (timeout : Float) (interval : α) {journal : Journal α}
    (hstopped : journal.stopped = false)
    (hready : Snapshot.Ready journal.disk folder.path ResolutionTally.fileNames)
    (hfew : itemCount candidates < 2 ^ 64) :
    ∃ r last w,
      (run out).go (ofCandidates catalog folder candidates nodes rounds timeout interval journal) =
        (r, last) ∧
      WorkedThrough out nodes (itemCount candidates) candidates r w := by
  obtain ⟨begun, hbegin, hcandidates, hnodes, hgoing, hfit⟩ :=
    exists_begun_of_listed out catalog folder hlisted nodes rounds timeout interval hstopped hready
  obtain ⟨r, w, hwork, hworked⟩ := hgoing.worked_chains hout hfew candidates hfit hnodes
  obtain ⟨settled, hsettle, hclosable⟩ : ∃ settled, Act.go (do Act.lift r; Job.settle) w =
    (r, settled) ∧
      Closable (itemCount candidates) settled := by
    obtain ⟨hfit, hbounded⟩ := hworked.closable
    cases r with
    | ok _ => exact ⟨_, rfl, ⟨hfit.within, hfit.ready⟩, hbounded⟩
    | error f => exact ⟨w, rfl, hfit, hbounded⟩
  have hended := (go_phases hbegin ((go_work hcandidates).trans hwork)).trans hsettle
  obtain ⟨d, dates, logs, hfinish, -⟩ := hclosable.fit.go_finish hout.accepted hclosable.bounded hfew
  exact ⟨r, _, w, Act.go_andFinally hended hfinish, hworked⟩

omit [Seconds α] in
theorem go_begin_of_error (out : Outside α) {f : Failure} (h : totalListed job.task.candidates = .error f) :
    (begin out).go job = (.error f, job) := by
  unfold begin
  rw [Act.go_bind, Act.go_state]
  dsimp only
  rw [Act.go_bind, h]
  rfl

/-- When a value lists nothing the resolution does not begin. -/
theorem exists_run_of_unlisted (out : Outside α) (h : ∃ e ∈ job.task.candidates, listed? e.2 = none)
    (hmarks : job.marks = (false, false)) (hprocessed : job.task.progress.processed.natAbs < 2 ^ 255) :
    ∃ last, (run out).go job = (.error .wrongKind, last) := by
  have hwork : Act.go (do begin out; work out) job = (.error .wrongKind, job) := by
    rw [Act.go_bind, go_begin_of_error out (totalListed_eq_error h)]
  obtain ⟨last, hrun, -⟩ := Job.run_of_failed hwork hmarks (closes hprocessed)
  exact ⟨last, hrun⟩

theorem exists_skipWith (hundisturbed : ∀ n, out.disturbance n = none) (chain : String)
    (hnone : ∀ record found, ¬Found out v.job.task.catalog chain chainId address record found) :
    ∃ level message, (level = .warning ∨ level = .error) ∧
      (resolveCandidate out chain chainId (.str address)).go v =
        (Visit.working (skipWith level message)).go (lookedUp chainId address v) := by
  obtain ⟨x, hx, htaken⟩ := exists_taken chain (go_lookup hundisturbed chainId address v)
  cases htaken with
  | skipped hlevel _ => exact ⟨_, _, hlevel, hx⟩
  | analyzed hfound => exact absurd hfound (hnone _ _)

omit [Seconds α] in
theorem skipWith_adds (level : Level) (message : String) (v : Visit α) :
    ((Visit.working (skipWith level message)).go v).2.job.task.progress = v.job.task.progress.add 1 true ∧
      ∃ more, ((Visit.working (skipWith level message)).go v).2.job.journal.logs.toList =
        v.job.journal.logs.toList ++ ⟨level, logger, message⟩ :: more := by
  obtain ⟨hprogress, more, hmore⟩ :=
    Tracked.track_adds (α := α) ⟨v.job.task.progress, { v.job.journal with
    logs := v.job.journal.logs.push ⟨level, logger, message⟩ }⟩ 1 true
  refine ⟨hprogress, more, hmore.trans ?_⟩
  rw [Array.toList_push, List.append_assoc]
  rfl

/-- What becomes of a candidate that is set aside: it is counted as skipped and reported by a warning or an
error, and nothing else is done with it. -/
structure SetAside (x : Act (Visit α) Unit) (v w : Visit α) : Prop where
  returns : x.go v = (.ok (), w)
  bare : w.bare = v.bare
  counted : w.job.task.progress = v.job.task.progress.add 1 true
  reported : ∃ level message more, (level = .warning ∨ level = .error) ∧
    w.job.journal.logs.toList = v.job.journal.logs.toList ++ ⟨level, logger, message⟩ :: more

theorem Going.exists_setAside (h : Going total (1 + n) v.job) (hundisturbed : ∀ n, out.disturbance n = none)
    (hunusable : Unusable out v.job.task.catalog chain chainId address) :
    ∃ w, SetAside (resolveCandidate out chain chainId (.str address)) v w := by
  obtain ⟨level, message, hlevel, hgo⟩ := exists_skipWith hundisturbed chain hunusable.not_found
  have h₁ : Going total (1 + n) (lookedUp chainId address v).job := h.journal rfl
  obtain ⟨w, hw, -, hbare⟩ := h₁.go_skipWith level message
  obtain ⟨hprogress, more, hmore⟩ := skipWith_adds level message (lookedUp chainId address v)
  rw [hw] at hprogress hmore
  exact ⟨w, hgo.trans hw, hbare, hprogress, level, message, more, hlevel, hmore⟩

/-- When no question and no flush fails, a resolution fails exactly for what its candidates list: at its
begin when a value lists nothing, and else, unless it is told to stop, when under a chain that has a node
and a number something is listed that is no text. Every text that is of no use is set aside; and a run goes
on as if such texts were not listed, and whatever is listed under a chain without a node or a number. -/
theorem fails_iff_unaskable (hout : Unhindered out) (catalog : List Definition) (folder : Folder)
    (candidates nodes : List (String × Json)) (rounds : Int) (timeout : Float) (interval : α)
    (journal : Journal α) (hstopped : journal.stopped = false)
    (hready : Snapshot.Ready journal.disk folder.path ResolutionTally.fileNames)
    (hfew : itemCount candidates < 2 ^ 64) :
    ∃ result last,
      (run out).go (ofCandidates catalog folder candidates nodes rounds timeout interval journal) =
        (result, last) ∧
      ((∃ e ∈ candidates, listed? e.2 = none) → result = .error .wrongKind) ∧
      ((∀ e ∈ candidates, listed? e.2 ≠ none) →
        (result = .ok () ∨ result = .error .noOperation ∧ Unaskable nodes candidates) ∧
        ((∀ k, out.stop k = false) → (result = .error .noOperation ↔ Unaskable nodes candidates))) ∧
      (∀ (chain : String) (chainId : Int) (address : String) (total n : Nat) (v : Visit α),
        Going total (1 + n) v.job → Unusable out v.job.task.catalog chain chainId address →
          ∃ w, SetAside (resolveCandidate out chain chainId (.str address)) v w) ∧
      ((∀ k, out.stop k = false) → ∀ candidates',
        List.Forall₂ (MatchedEntry out catalog nodes) candidates candidates' →
          itemCount candidates' < 2 ^ 255 → ∃ last',
            (run out).go (ofCandidates catalog folder candidates' nodes rounds timeout interval journal) =
              (result, last') ∧
            last.bare = last'.bare) := by
  cases hrun : (run out).go
    (ofCandidates catalog folder candidates nodes rounds timeout interval journal) with
  | mk result last =>
  refine ⟨result, last, rfl, fun hunlisted => ?_, fun hlisted => ?_,
    fun chain chainId address total n v h hunusable => h.exists_setAside hout.undisturbed hunusable,
    fun huntold candidates' hmatched hfew' => ?_⟩
  · obtain ⟨last', hrun'⟩ := @exists_run_of_unlisted α
      (ofCandidates catalog folder candidates nodes rounds timeout interval journal) _ out hunlisted rfl
      (by change (0 : Int).natAbs < 2 ^ 255; decide)
    exact (Prod.mk.inj (hrun.symm.trans hrun')).1
  · obtain ⟨r, last', w, hrun', hworked⟩ := exists_run_of_listed hout catalog folder hlisted nodes
      rounds timeout interval hstopped hready hfew
    obtain rfl := (Prod.mk.inj (hrun.symm.trans hrun')).1
    rcases hworked.ending with ⟨rfl, hgood⟩ | ⟨rfl, hbad⟩
    · refine ⟨.inl rfl, fun huntold => ⟨fun h => (nomatch h), fun hbad => ?_⟩⟩
      rcases hgood with hgood | ⟨k, hk⟩
      · exact absurd hbad hgood
      · rw [huntold k] at hk
        cases hk
    · exact ⟨.inr ⟨rfl, hbad⟩, fun _ => ⟨fun _ => hbad, fun _ => rfl⟩⟩
  · have hcalm : Calm out := ⟨hout.undisturbed, hout.accepted, huntold⟩
    obtain ⟨result', last₁, last', hrun₁, hrun', hbare⟩ :=
      go_run_matched hcalm catalog folder nodes rounds
      timeout interval hstopped hmatched (by omega) hfew'
    obtain ⟨rfl, rfl⟩ := Prod.mk.inj (hrun.symm.trans hrun₁)
    exact ⟨last', hrun', hbare⟩

theorem fails_iff_unaskable_of_number :
    let one : Json := .str "0x1111111111111111111111111111111111111111"
    let start (candidates : List (String × Json)) : Resolve Rat :=
      ofCandidates Catalog.builtIn ⟨["out"], "out"⟩ candidates [("1", .str "http://rpc")] 1 30 0
        { clock := 0 }
    (∃ last, (run oneOfFive).go (start [("1", .arr [.int 5, one])]) = (.error .noOperation, last)) ∧
      (∃ last, (run oneOfFive).go (start [("1", .int 5)]) = (.error .wrongKind, last)) ∧
      ∃ last, (run oneOfFive).go (start [("1", .arr [one]), ("x", .arr [.int 5])]) = (.ok (), last) ∧
        last.task.tally.processed = 1 := by
  intro one start
  have hready : Snapshot.Ready {} ["out"] ResolutionTally.fileNames :=
    Snapshot.ready_empty (by decide) (by decide)
  have hout : Unhindered oneOfFive := ⟨fun _ => rfl, fun _ => rfl⟩
  have hruns := fun candidates hfew => fails_iff_unaskable hout Catalog.builtIn
    ⟨["out"], "out"⟩ candidates
    [("1", .str "http://rpc")] 1 30 0 { clock := 0 } rfl hready hfew
  have hlisted : ∀ items : List (List Json), ∀ names : List String,
      ∀ e ∈ names.zip (items.map Json.arr), listed? e.2 ≠ none := by
    intro items names e he
    obtain ⟨items', -, hitems⟩ := List.mem_map.1 (List.of_mem_zip he).2
    rw [← hitems]
    exact Option.some_ne_none _
  have hprocessed :
      ((run oneOfFive).go (start [("1", .arr [one]), ("x", .arr [.int 5])])).2.task.tally.processed =
        1 := by
    decide +kernel
  refine ⟨?_, ?_, ?_⟩
  · obtain ⟨result, last, hrun, -, hfails, -⟩ := hruns [("1", .arr [.int 5, one])] (by decide)
    have hbad : Unaskable [("1", .str "http://rpc")] [("1", .arr [.int 5, one])] :=
      ⟨_, List.mem_singleton_self _, by decide +kernel, .int 5, List.mem_cons_self,
        fun _ => Json.noConfusion⟩
    obtain rfl := ((hfails (hlisted [[.int 5, one]] ["1"])).2 fun _ => rfl).2 hbad
    exact ⟨last, hrun⟩
  · obtain ⟨result, last, hrun, hunlisted, -⟩ := hruns [("1", .int 5)] (by decide)
    obtain rfl := hunlisted ⟨_, List.mem_singleton_self _, rfl⟩
    exact ⟨last, hrun⟩
  · obtain ⟨result, last, hrun, -, hfails, -⟩ :=
      hruns [("1", .arr [one]), ("x", .arr [.int 5])] (by decide)
    have hgood : ¬Unaskable [("1", .str "http://rpc")] [("1", .arr [one]), ("x", .arr [.int 5])] := by
      rintro ⟨e, he, hnumber, item, hitem, hother⟩
      simp only [List.mem_cons, List.not_mem_nil, or_false] at he
      rcases he with rfl | rfl
      · obtain rfl := List.mem_singleton.1 hitem
        exact hother _ rfl
      · exact hnumber (by decide +kernel)
    rcases (hfails (hlisted [[one], [.int 5]] ["1", "x"])).1 with rfl | ⟨-, hbad⟩
    · refine ⟨last, hrun, ?_⟩
      change (run oneOfFive).go (start _) = _ at hrun
      rw [hrun] at hprocessed
      exact hprocessed
    · exact absurd hbad hgood

end Resolve

end ProxyCensus
