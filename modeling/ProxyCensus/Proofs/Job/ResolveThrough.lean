import ProxyCensus.Proofs.Job.Accounts
import ProxyCensus.Proofs.Job.ResolveAlike

/-!
# Resolutions that come through

Where a resolution ends when no question and no flush fails. Main statements: it comes to the end of its
candidates, or to a point where it is told to stop, and was not told so before; its files can be written
there; and its end writes them once.
-/

namespace ProxyCensus.Resolve

variable {α : Type}

/-- Nothing comes in the way of a resolution but the nodes and the word to stop: no question and no flush
fails. -/
structure Unhindered (out : Outside α) : Prop where
  undisturbed : ∀ n, out.disturbance n = none
  accepted : ∀ n, out.flushFault n = none

theorem Calm.unhindered {out : Outside α} (h : Calm out) : Unhindered out :=
  ⟨h.undisturbed, h.accepted⟩

/-- The files of a resolution can be written. -/
structure Fit (job : Resolve α) : Prop where
  within : job.task.tally.Within job.task.progress.processed.toNat
  ready : Snapshot.Ready job.journal.disk job.task.folder.path ResolutionTally.fileNames

/-- From one number of questions to another the answer was each time not to stop. -/
structure Untold (out : Outside α) (first stops : Nat) : Prop where
  le : first ≤ stops
  answers : ∀ k, first ≤ k → k < stops → out.stop k = false

/-- A resolution goes on at a point, with room for the candidates ahead, was not told to stop before, and
its files can be written. -/
structure Sound (out : Outside α) (first total : Nat) (p : Point α) : Prop where
  going : Going total p.ahead.length p.job
  fit : Fit p.job
  untold : Untold out first p.job.journal.stops

/-- At a point a resolution asks whether to stop and is told so. -/
inductive Point.Told (out : Outside α) : Point α → Resolve α → Prop where
  | between {e : String × List String} {chains : List (String × List String)} {job noticed : Resolve α}
    (h : (Job.shouldStop out).go job = (.ok true, noticed)) : Told out (.between (e :: chains) job) noticed
  | within {chain address : String} {chainId : Int} {addresses : List String}
    {chains : List (String × List String)} {v : Visit α} {noticed : Resolve α}
    (h : (Job.shouldStop out).go v.job = (.ok true, noticed)) :
    Told out (.within chain chainId (address :: addresses) chains v) noticed

variable {out : Outside α} {first total n : Nat} {job job₁ : Resolve α} {v : Visit α}
  {catalog : List Definition} {chain address : String} {chainId : Int} {record : ContractRecord}
  {found : List Match}

theorem Untold.succ {stops : Nat} (h : Untold out first stops) (hstop : out.stop stops = false) :
    Untold out first (stops + 1) := by
  refine ⟨h.le.trans (Nat.le_succ stops), fun k hfirst hk => ?_⟩
  rcases Nat.lt_succ_iff_lt_or_eq.1 hk with hlt | rfl
  · exact h.answers k hfirst hlt
  · exact hstop

theorem Fit.journal (h : Fit job) {j : Journal α} (hdisk : j.disk = job.journal.disk) :
    Fit { job with journal := j } :=
  ⟨h.within, hdisk ▸ h.ready⟩

theorem Fit.pass (h : Fit job) (count : Nat) (hnonneg : 0 ≤ job.task.progress.processed)
    (skipped : Bool) :
    Fit { job with task := { job.task with progress := job.task.progress.add count skipped } } := by
  refine ⟨h.within.mono ?_, h.ready⟩
  change _ ≤ (job.task.progress.processed + (count : Int)).toNat
  omega

theorem Fit.count (h : Fit job) (hnonneg : 0 ≤ job.task.progress.processed) {c : Classification}
    (hc : ResolutionTally.Writable c) : Fit { job with task := settled job.task (some c) } := by
  refine ⟨?_, h.ready⟩
  change (job.task.tally.record c).Within (job.task.progress.processed + 1).toNat
  rw [Int.toNat_add hnonneg (by decide)]
  exact h.within.record hc

theorem Fit.enter (h : Fit job) (hnumber : Text.int? chain = some chainId) : Fit (entered chain job) :=
  ⟨h.within.addChain (Text.hasHalf_of_int? hnumber), h.ready⟩

theorem int?_of_numberOf? {nodes : List (String × Json)} (h : numberOf? nodes chain = some chainId) :
    Text.int? chain = some chainId := by
  rw [numberOf?, isSet_of_numberOf? h, if_pos rfl] at h
  exact h

theorem Found.length_le (h : Found out catalog chain chainId address record found) :
    found.length ≤ Pattern.all.length := by
  have hrecord : Classification.ofRecord catalog record = .ok (.ofMatches record found) :=
    Classification.ofRecord_eq_ok_iff.2 ⟨found, h.detected, rfl⟩
  have hlength := Classification.length_patterns_le hrecord
  rwa [Classification.ofMatches, List.length_map] at hlength

theorem Found.hasHalf_address (h : Found out catalog chain chainId address record found) :
    Text.hasHalf record.address = false := by
  obtain ⟨code, -, hrecord⟩ := h.code
  obtain ⟨-, s, -, hs⟩ := ContractRecord.place_of_ofCode hrecord
  exact (Address.isNormal_of_normalize? hs).hasHalf

theorem Going.eq_asked (h : Going total n job)
    (hgoing : (Job.shouldStop out).go job = (.ok false, job₁)) :
    job₁ = Resolve.asked job ∧ out.stop job.journal.stops = false := by
  obtain ⟨htold, rfl⟩ := Prod.mk.inj ((Job.go_shouldStop out h.interrupted).symm.trans hgoing)
  rw [Except.ok.inj htold]
  obtain ⟨interrupted, completed, task, journal⟩ := job
  obtain rfl : interrupted = false := h.interrupted
  exact ⟨rfl, (Bool.or_eq_false_iff.1 (Except.ok.inj htold)).1⟩

/-- A resolution asks whether to stop; it is told to, or it has only asked. -/
theorem Going.told_or_asked (h : Going total n job) (out : Outside α) :
    (∃ noticed, (Job.shouldStop out).go job = (.ok true, noticed)) ∨
      (Job.shouldStop out).go job = (.ok false, Resolve.asked job) := by
  obtain ⟨stop, job₁, hgo, -⟩ := Job.exists_shouldStop out job
  cases stop with
  | true => exact .inl ⟨job₁, hgo⟩
  | false => exact .inr ((h.eq_asked hgo).1 ▸ hgo)

variable {p p' : Point α} {noticed : Resolve α}

theorem Going.eq_of_told (h : Going total n job) (hgo : (Job.shouldStop out).go job = (.ok true, noticed)) :
    noticed = { Resolve.asked job with interrupted := true } ∧ out.stop job.journal.stops = true := by
  obtain ⟨htold, rfl⟩ := Prod.mk.inj ((Job.go_shouldStop out h.interrupted).symm.trans hgo)
  have hstop := Except.ok.inj htold
  rw [hstop]
  refine ⟨rfl, ?_⟩
  rwa [h.stopped, Bool.or_false] at hstop

theorem Sound.eq_of_told (h : Sound out first total p) (htold : p.Told out noticed) :
    noticed = { asked p.job with interrupted := true } ∧ out.stop p.job.journal.stops = true := by
  cases htold with
  | between hgo => exact h.going.eq_of_told hgo
  | within hgo => exact h.going.eq_of_told hgo

variable [Seconds α]

/-- What an analysis makes of a candidate that is found can be written. -/
theorem Found.writable (h : Found out catalog chain chainId address record found) {l : Line α}
    {c : Classification}
    (hasked : ((Analysis.resolve out (some chainId) record found).go l).1 = .ok c) :
    ResolutionTally.Writable c :=
  ResolutionTally.writable_of_extends (Analysis.resolve_yields out (some chainId) record found l c hasked)
    h.hasHalf_address h.length_le

theorem Fit.settle (h : Fit job) (hnonneg : 0 ≤ job.task.progress.processed) {l : Line α}
    {fate : Option Classification} (hfate : Fate out catalog chain chainId address l fate) :
    Fit { job with task := settled job.task fate } := by
  cases fate with
  | none => exact h.pass 1 hnonneg true
  | some c =>
    obtain ⟨record, found, hfound, hasked⟩ := (hfate c).1 rfl
    exact h.count hnonneg (hfound.writable hasked)

omit [Seconds α] in
theorem Fit.go_flush (h : Fit job) (haccepted : ∀ n, out.flushFault n = none)
    (hbounded : job.task.progress.Bounded total) (htotal : total < 2 ^ 64) :
    ∃ d, (flush out).go job = (.ok (),
        { job with journal := job.journal.saved job.task.folder job.task.tally.artifacts d }) ∧
      Fit { job with journal := job.journal.saved job.task.folder job.task.tally.artifacts d } := by
  have hfew : job.task.progress.processed.toNat < 2 ^ 64 := by
    have := hbounded.within
    omega
  obtain ⟨d, hgo, -, hready⟩ := go_flush_of_within haccepted h.within hfew h.ready
  exact ⟨d, hgo, h.within, hready⟩

omit [Seconds α] in
theorem Fit.go_finish (h : Fit job) (haccepted : ∀ n, out.flushFault n = none)
    (hbounded : job.task.progress.Bounded total) (htotal : total < 2 ^ 64) :
    ∃ d dates logs, (finish out).go job = (.ok (), { job with
        task := { job.task with progress := { job.task.progress with started := none } }
        journal := { job.journal.saved job.task.folder job.task.tally.artifacts d with
          dates := dates, logs := logs } }) ∧
      Snapshot.Flushed job.journal.disk job.task.folder.path job.task.tally.artifacts d := by
  have hfew : job.task.progress.processed.toNat < 2 ^ 64 := by
    have := hbounded.within
    omega
  obtain ⟨d, dates, logs, hgo, hflushed, -⟩ :=
    go_finish_of_within haccepted h.within hfew h.ready (hbounded.small (by omega))
  exact ⟨d, dates, logs, hgo, hflushed⟩

theorem Fit.candidate (h : Fit v.job) (hbounded : v.job.task.progress.Bounded total)
    (hroom : v.job.task.progress.processed < total) (hundisturbed : ∀ n, out.disturbance n = none)
    {w : Visit α} (hgo : (resolveCandidate out chain chainId (.str address)).go v = (.ok (), w)) :
    Fit w.job ∧ w.job.journal.stops = v.job.journal.stops := by
  obtain ⟨x, hcandidate, fate, v', hx, hfate, hjob, hsetting⟩ :=
    exists_disposes chain (go_lookup hundisturbed chainId address v) hbounded hroom
  obtain rfl : v' = w := (Prod.mk.inj ((hcandidate.trans hx).symm.trans hgo)).2
  have hsettled := (h.journal (j := (lookedUp chainId address v).job.journal) rfl).settle
    hbounded.nonneg hfate
  refine ⟨?_, Line.stops_of_setting hsetting⟩
  rw [hjob]
  exact hsettled.journal (Line.stopped_of_setting hsetting).2

variable {more : List (Entry α)}

/-- A step leaves a resolution sound. -/
theorem Sound.step (hout : Unhindered out) (htotal : total < 2 ^ 64) (h : Sound out first total p)
    (hstep : Step out p more p') : Sound out first total p' := by
  cases hstep with
  | @passOver chain addresses chains job job₁ job₂ hgoing hnumber hgo =>
    obtain ⟨rfl, hstop⟩ := h.going.eq_asked hgoing
    have hgoing := h.going
    change Going total (addresses.map (chain, ·) ++ pairs chains).length job at hgoing
    rw [List.length_append, List.length_map] at hgoing
    have hroom := hgoing.room
    obtain ⟨logs, hpassed⟩ := go_resolveChain_of_none out hnumber hgoing.bounded addresses
      (by change job.task.progress.processed + _ ≤ _; omega)
    obtain rfl := (Prod.mk.inj (hpassed.symm.trans hgo)).2
    exact ⟨(hgoing.add addresses.length true job.task.tally).journal rfl,
      (h.fit.pass addresses.length hgoing.bounded.nonneg true).journal rfl, h.untold.succ hstop⟩
  | @enter chain chainId addresses chains job job₁ job₂ client hgoing hnumber hnoted hclient =>
    obtain ⟨rfl, hstop⟩ := h.going.eq_asked hgoing
    obtain rfl := (Prod.mk.inj hnoted).2
    exact ⟨{ h.going with }, (h.fit.enter (int?_of_numberOf? hnumber)).journal rfl, h.untold.succ hstop⟩
  | @candidate chain address chainId addresses chains v v₁ v₂ v₃ codes hgoing hlookup hgo =>
    obtain ⟨hjob₁, hstop⟩ := h.going.eq_asked (go_of_working hgoing).1
    have hgoing₁ : Going total (1 + (addresses.map (chain, ·) ++ pairs chains).length) v₁.job := by
      rw [hjob₁, Nat.add_comm]
      exact h.going.asked
    obtain ⟨w, hw, hgoing', -⟩ :=
      hgoing₁.go_resolveCandidate hout.undisturbed chain chainId address
    obtain rfl := (Prod.mk.inj (hw.symm.trans hgo)).2
    have hfit₁ : Fit v₁.job := by
      rw [hjob₁]
      exact h.fit.journal rfl
    have hroom₁ := hgoing₁.room
    obtain ⟨hfit, hstops⟩ := hfit₁.candidate hgoing₁.bounded (by omega) hout.undisturbed hgo
    refine ⟨hgoing', hfit, ?_⟩
    change Untold out first w.job.journal.stops
    rw [hstops, hjob₁]
    exact h.untold.succ hstop
  | @leave chain chainId chains v v₁ job hclose hflush =>
    obtain ⟨l, hclose', hsetting⟩ := go_close v
    obtain rfl := (Prod.mk.inj (hclose'.symm.trans hclose)).2
    obtain ⟨hstopped, hdisk⟩ := Line.stopped_of_setting hsetting
    have hfit : Fit { v.job with journal := l.journal } := h.fit.journal hdisk
    obtain ⟨d, hflush', hsaved⟩ := hfit.go_flush hout.accepted h.going.bounded htotal
    obtain rfl := (Prod.mk.inj (hflush'.symm.trans hflush)).2
    refine ⟨h.going.journal hstopped, hsaved, ?_⟩
    change Untold out first l.journal.stops
    rw [Line.stops_of_setting hsetting]
    exact h.untold

/-- A chain whose candidates have been dealt with is left: the connection is closed, and the files are
written. -/
theorem Sound.exists_leave (hout : Unhindered out) (htotal : total < 2 ^ 64)
    {chains : List (String × List String)} (h : Sound out first total (.within chain chainId [] chains v)) :
    ∃ job, Step out (.within chain chainId [] chains v) [] (.between chains job) ∧
      job.task = v.job.task ∧ job.journal.posts = v.job.journal.posts := by
  obtain ⟨l, hclose, hsetting⟩ := go_close v
  have hposts := closing_keeps_posts.of_go hclose
  have hfit : Fit { v.job with journal := l.journal } :=
    h.fit.journal (Line.stopped_of_setting hsetting).2
  obtain ⟨d, hflush, -⟩ := hfit.go_flush hout.accepted h.going.bounded htotal
  exact ⟨_, .leave hclose hflush, rfl, hposts⟩

/-- A resolution that is sound is through, or is told to stop, or takes a step after which there are fewer
steps ahead. -/
theorem Sound.advances (hout : Unhindered out) (htotal : total < 2 ^ 64) (h : Sound out first total p) :
    (∃ job, p = .between [] job) ∨ (∃ noticed, p.Told out noticed) ∨
      ∃ more p', Step out p more p' ∧ p'.size < p.size := by
  cases p with
  | between chains job =>
    rcases chains with _ | ⟨⟨chain, addresses⟩, rest⟩
    · exact .inl ⟨job, rfl⟩
    refine .inr ((h.going.told_or_asked out).imp (fun h => h.imp fun _ => .between) fun hgoing => ?_)
    cases hnumber : numberOf? job.task.nodes chain with
    | none =>
      have hroom := h.going.room
      change job.task.progress.processed + ((addresses.map (chain, ·) ++ pairs rest).length : Nat) ≤ total
        at hroom
      rw [List.length_append, List.length_map] at hroom
      obtain ⟨logs, hpassed⟩ := go_resolveChain_of_none out
        (show numberOf? (asked job).task.nodes chain = none from hnumber) h.going.bounded addresses
        (by change job.task.progress.processed + _ ≤ _; omega)
      exact ⟨_, _, .passOver hgoing hnumber hpassed, by simp [Point.size]⟩
    | some chainId =>
      obtain ⟨client, hclient⟩ := Client.exists_ofUrl? (isSet_of_numberOf? hnumber) job.task.rounds
        job.task.timeout job.task.interval
      exact ⟨_, _, .enter hgoing hnumber rfl hclient, by simp [Point.size]⟩
  | within chain chainId addresses chains v =>
    rcases addresses with _ | ⟨address, rest⟩
    · obtain ⟨job, hstep, -⟩ := h.exists_leave hout htotal
      exact .inr (.inr ⟨_, _, hstep, by simp [Point.size]⟩)
    refine .inr ((h.going.told_or_asked out).imp (fun h => h.imp fun _ => .within) fun hgoing => ?_)
    have hgoing₁ : Going total (1 + (rest.map (chain, ·) ++ pairs chains).length) (asked v.job) := by
      rw [Nat.add_comm]
      exact h.going.asked
    obtain ⟨w, hw, -, -⟩ :=
      hgoing₁.go_resolveCandidate (v := ⟨v.client, _⟩) hout.undisturbed chain chainId address
    exact ⟨_, _, .candidate (go_working hgoing) (go_lookup hout.undisturbed ..) hw, by simp [Point.size]⟩

variable {start begun left : Resolve α} {listed : List (String × List String)} {entries : List (Entry α)}

omit [Seconds α] in
theorem exists_begun (out : Outside α) (catalog : List Definition) (folder : Folder)
    (listed : List (String × List String)) (nodes : List (String × Json)) (rounds : Int)
    (timeout : Float) (interval : α) {journal : Journal α} (hstopped : journal.stopped = false)
    (hready : Snapshot.Ready journal.disk folder.path ResolutionTally.fileNames) :
    ∃ begun,
      (begin out).go (ofListed catalog folder listed nodes rounds timeout interval journal) =
        (.ok (), begun) ∧
      Sound out journal.stops (listedCount listed) (.between listed begun) := by
  have hgo := @go_begin α (ofListed catalog folder listed nodes rounds timeout interval journal) _ out
    (totalListed_listing listed)
  refine ⟨_, hgo.trans rfl, ⟨⟨rfl, rfl, Int.le_refl 0, Int.natCast_nonneg _⟩, ?_, rfl, hstopped⟩,
    ⟨ResolutionTally.within_empty, hready⟩,
    ⟨Nat.le_refl _, fun k hfirst hk => absurd hk (Nat.not_lt_of_le hfirst)⟩⟩
  change (0 : Int) + (pairs listed).length ≤ listedCount listed
  rw [length_pairs]
  omega

theorem Reaches.sound (hout : Unhindered out) (htotal : total < 2 ^ 64)
    (hbegin : (begin out).go start = (.ok (), begun))
    (hbegun : Sound out first total (.between listed begun))
    (h : Reaches out start listed entries p) : Sound out first total p := by
  induction h with
  | begun hbegin' =>
    obtain rfl := (Prod.mk.inj (hbegin.symm.trans hbegin')).2
    exact hbegun
  | step _ hstep ih => exact ih.step hout htotal hstep

/-- A resolution comes to the end of its candidates, or to a point where it is told to stop. -/
theorem Reaches.exists_end (hout : Unhindered out) (htotal : total < 2 ^ 64)
    (h : Reaches out start listed entries p) (hsound : Sound out first total p) :
    ∃ entries p, Reaches out start listed entries p ∧ Sound out first total p ∧
      ((∃ job, p = .between [] job) ∨ ∃ noticed, p.Told out noticed) := by
  refine h.exists_of_advances (fun {_ p} hsound => ?_) hsound
  rcases hsound.advances hout htotal with hthrough | htold | ⟨more, p', hstep, hless⟩
  · exact .inl (.inl hthrough)
  · exact .inl (.inr htold)
  · exact .inr ⟨more, p', hstep, hsound.step hout htotal hstep, hless⟩

/-- How a resolution ends after its work: it writes its files once more and does nothing else. -/
structure Ended (left last : Resolve α) : Prop where
  interrupted : last.interrupted = left.interrupted
  completed : last.completed = !left.interrupted
  folder : last.task.folder = left.task.folder
  tally : last.task.tally = left.task.tally
  posts : last.journal.posts = left.journal.posts
  stops : last.journal.stops = left.journal.stops
  flushCalls : last.journal.flushCalls = left.journal.flushCalls + 1
  saved : Snapshot.Holds last.journal.disk last.task.folder.path last.task.tally.artifacts

theorem Fit.exists_ended (h : Fit left) (haccepted : ∀ n, out.flushFault n = none)
    (hbounded : left.task.progress.Bounded total) (htotal : total < 2 ^ 64)
    (hbegin : (begin out).go start = (.ok (), begun)) (hwork : (work out).go begun = (.ok (), left)) :
    ∃ last, (run out).go start = (.ok (), last) ∧ Ended left last := by
  have hgo : Act.go (do begin out; work out) start = (.ok (), left) := by
    rw [Act.go_bind, hbegin]
    exact hwork
  have hsettled : Fit { left with completed := !left.interrupted } := ⟨h.within, h.ready⟩
  obtain ⟨d, dates, logs, hfinish, hflushed⟩ := hsettled.go_finish haccepted hbounded htotal
  exact ⟨_, Job.go_run hgo hfinish, rfl, rfl, rfl, rfl, rfl, rfl, rfl, hflushed.toHolds⟩

section New

/-! The course of a new resolution on a disk where nothing is in its way. -/

variable {folder : Folder} {nodes : List (String × Json)} {rounds : Int} {timeout : Float} {interval : α}
  {journal : Journal α}

theorem Reaches.sound_of_new (hout : Unhindered out) (hstopped : journal.stopped = false)
    (hready : Snapshot.Ready journal.disk folder.path ResolutionTally.fileNames)
    (hfew : listedCount listed < 2 ^ 64)
    (h : Reaches out (ofListed catalog folder listed nodes rounds timeout interval journal)
      listed entries p) :
    Sound out journal.stops (listedCount listed) p := by
  obtain ⟨begun, hbegin, hbegun⟩ :=
    exists_begun out catalog folder listed nodes rounds timeout interval hstopped hready
  exact h.sound hout hfew hbegin hbegun

/-- A resolution whose work returns at a point ends as it stands there. -/
theorem Reaches.exists_ended (hout : Unhindered out) (hstopped : journal.stopped = false)
    (hready : Snapshot.Ready journal.disk folder.path ResolutionTally.fileNames)
    (hfew : listedCount listed < 2 ^ 64)
    (h : Reaches out (ofListed catalog folder listed nodes rounds timeout interval journal)
      listed entries p)
    (hresume : p.resume out = (.ok (), left)) (htask : left.task = p.job.task)
    (hdisk : left.journal.disk = p.job.journal.disk) :
    ∃ last, (run out).go (ofListed catalog folder listed nodes rounds timeout interval journal) =
      (.ok (), last) ∧ Ended left last ∧ last.task.folder = folder := by
  obtain ⟨begun, hbegin, hcandidates, hbegun⟩ :=
    kept_begin out catalog folder listed nodes rounds timeout interval journal
  obtain ⟨hkept, -, hwork⟩ := h.kept hbegin hbegun hcandidates
  have hfit := (h.sound_of_new hout hstopped hready hfew).fit
  have hfit' : Fit left := by
    refine ⟨htask ▸ hfit.within, ?_⟩
    rw [htask, hdisk]
    exact hfit.ready
  obtain ⟨last, hrun, hended⟩ := hfit'.exists_ended hout.accepted (htask ▸ hkept.bounded) hfew hbegin
    (hwork.trans hresume)
  refine ⟨last, hrun, hended, ?_⟩
  rw [hended.folder, htask, hkept.task]
  rfl

/-- A new resolution that nothing comes in the way of deals with all its candidates. -/
theorem Calm.exists_through (hcalm : Calm out) (catalog : List Definition) (folder : Folder)
    (listed : List (String × List String)) (nodes : List (String × Json)) (rounds : Int)
    (timeout : Float) (interval : α) (hstopped : journal.stopped = false)
    (hready : Snapshot.Ready journal.disk folder.path ResolutionTally.fileNames)
    (hfew : listedCount listed < 2 ^ 64) :
    ∃ entries job last,
      Reaches out (ofListed catalog folder listed nodes rounds timeout interval journal) listed entries
        (.between [] job) ∧
      (run out).go (ofListed catalog folder listed nodes rounds timeout interval journal) = (.ok (), last) ∧
      Ended job last ∧ last.completed = true := by
  obtain ⟨begun, hbegin, hbegun⟩ :=
    exists_begun out catalog folder listed nodes rounds timeout interval hstopped hready
  obtain ⟨entries, p, h, hsound, ⟨job, rfl⟩ | ⟨noticed, htold⟩⟩ :=
    (Reaches.begun hbegin).exists_end hcalm.unhindered hfew hbegun
  · obtain ⟨last, hrun, hended, -⟩ := h.exists_ended hcalm.unhindered hstopped hready hfew rfl rfl rfl
    have hgoing : job.interrupted = false := hsound.going.interrupted
    refine ⟨entries, job, last, h, hrun, hended, ?_⟩
    rw [hended.completed, hgoing]
    rfl
  · have hstop := (hsound.eq_of_told htold).2
    rw [hcalm.untold] at hstop
    cases hstop

end New

end ProxyCensus.Resolve
