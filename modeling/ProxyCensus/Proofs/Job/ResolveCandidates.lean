import ProxyCensus.Proofs.Corpus
import ProxyCensus.Proofs.Job.CandidateFates
import ProxyCensus.Proofs.Job.Flush
import ProxyCensus.Proofs.Job.Marks
import ProxyCensus.Proofs.Tally.Resolution

/-!
# The candidates of a resolution

What a resolution has done after some candidates, when nothing but the nodes comes in its way: it has
counted each whose analysis has returned as what detection says of it decides, and skipped each whose
analysis has failed. Main statement: so it goes with every candidate whose code the corpus has, and in
which detection finds at least two patterns; what every analysis keeps of the outcomes and the messages,
the whole resolution keeps.
-/

namespace ProxyCensus.Resolve

variable {α : Type}

/-- Nothing but the nodes comes in the way of a resolution: no query and no flush fails, and it is
never told to stop. -/
structure Calm (out : Outside α) : Prop where
  undisturbed : ∀ n, out.disturbance n = none
  accepted : ∀ n, out.flushFault n = none
  untold : ∀ n, out.stop n = false

/-- Candidates in the order in which they were worked on, each with whether its analysis has
returned. -/
abbrev Results := List (Classification × Bool)

namespace Results

def counted (results : Results) : List Classification :=
  (results.filter (·.2)).map (·.1)

def skipped (results : Results) : Nat :=
  results.countP fun r => !r.2

def returned (results : Results) : List Bool :=
  results.map (·.2)

theorem counted_concat (results : Results) (c : Classification) (returned : Bool) :
    counted (results ++ [(c, returned)]) = results.counted ++ if returned then [c] else [] := by
  cases returned <;> simp [counted]

theorem skipped_concat (results : Results) (c : Classification) (returned : Bool) :
    skipped (results ++ [(c, returned)]) = results.skipped + if returned then 0 else 1 := by
  cases returned <;> simp [skipped]

theorem returned_concat (results : Results) (c : Classification) (returned : Bool) :
    Results.returned (results ++ [(c, returned)]) = results.returned ++ [returned] :=
  List.map_append

theorem skipped_eq_zero_iff {results : Results} :
    results.skipped = 0 ↔ ∀ r ∈ results.returned, r = true := by
  simp [skipped, returned]

theorem counted_of_returned {results : Results} (h : ∀ r ∈ results.returned, r = true) :
    results.counted = results.map (·.1) := by
  rw [counted, List.filter_eq_self.2]
  exact fun r hr => h r.2 (List.mem_map_of_mem hr)

theorem counted_of_failed {results : Results} (h : ∀ r ∈ results.returned, r = false) :
    results.counted = [] := by
  rw [counted, List.filter_eq_nil_iff.2, List.map_nil]
  exact fun r hr => Bool.eq_false_iff.1 (h r.2 (List.mem_map_of_mem hr))

theorem skipped_of_failed {results : Results} (h : ∀ r ∈ results.returned, r = false) :
    results.skipped = results.length := by
  refine List.countP_eq_length.2 fun r hr => ?_
  rw [h r.2 (List.mem_map_of_mem hr)]
  rfl

end Results

/-- Since `start`, a resolution of `total` contracts has worked on the chains `chains` and on the
candidates of `results`, and `holds` of their outcomes and the messages that were sent. -/
structure Resolving (start : Resolve α) (total : Nat) (holds : List Bool → List Post → Prop)
    (chains : List String) (results : Results) (job : Resolve α) : Prop where
  task : job.task =
    { start.task with tally := job.task.tally, progress := job.task.progress }
  counts : job.task.tally.Counts chains results.counted
  within : job.task.tally.Within results.length
  bounded : job.task.progress.Bounded total
  processed : job.task.progress.processed = results.length
  skipped : job.task.progress.skipped = results.skipped
  holds : holds results.returned job.journal.posts
  stopped : job.journal.stopped = false
  interrupted : job.interrupted = false
  ready : Snapshot.Ready job.journal.disk start.task.folder.path ResolutionTally.fileNames

/-- The corpus has one code for a candidate, and detection finds its patterns in it. -/
structure Known (out : Outside α) (catalog : List Definition) (c : Classification) : Prop where
  code : ∃ code record found, out.codes c.chainId (Corpus.addressKey c.address) = [code] ∧
    search catalog (toString c.chainId) (.str c.address) code = .ok (record, found) ∧
    Detection.inText catalog record.bytecode = .ok found ∧ Classification.ofMatches record found = c
  several : 1 < c.matchCount
  few : c.matchCount ≤ Pattern.all.length
  plain : Text.hasHalf c.address = false

variable {out : Outside α} {start job : Resolve α} {total : Nat}
  {holds : List Bool → List Post → Prop} {chains : List String} {results : Results}

theorem Resolving.catalog (h : Resolving start total holds chains results job) :
    job.task.catalog = start.task.catalog := by
  rw [h.task]

theorem Resolving.folder (h : Resolving start total holds chains results job) :
    job.task.folder = start.task.folder := by
  rw [h.task]

theorem Resolving.journal (h : Resolving start total holds chains results job) {j : Journal α}
    (hposts : j.posts = job.journal.posts) (hstopped : j.stopped = job.journal.stopped)
    (hdisk : j.disk = job.journal.disk) :
    Resolving start total holds chains results { job with journal := j } :=
  { h with
    holds := hposts ▸ h.holds
    stopped := hstopped.trans h.stopped
    ready := hdisk ▸ h.ready }

theorem Resolving.go_shouldStop (h : Resolving start total holds chains results job)
    (huntold : ∀ n, out.stop n = false) :
    (Job.shouldStop out).go job = (.ok false,
      { job with journal := { job.journal with stops := job.journal.stops + 1 } }) := by
  have hgo := Job.go_shouldStop out h.interrupted
  rw [huntold, h.stopped, Bool.or_false, ← h.interrupted] at hgo
  rw [hgo, h.interrupted]

theorem Resolving.room (h : Resolving start total holds chains results job)
    (hroom : results.length < total) : job.task.progress.processed < total := by
  rw [h.processed]
  omega

/-- A candidate is counted when its analysis returns, and else it is skipped. -/
theorem Resolving.settle (h : Resolving start total holds chains results job) {n : Nat}
    {c : Classification} {r : Except Failure Classification}
    (hextends : ∀ c', r = .ok c' → c.Extends n c') (hplain : Text.hasHalf c.address = false)
    (hfew : n ≤ Pattern.all.length) (hroom : results.length < total) {j : Journal α}
    (hholds : holds (results.returned ++ [r.isOk]) j.posts)
    (hstopped : j.stopped = job.journal.stopped) (hdisk : j.disk = job.journal.disk) :
    Resolving start total holds chains (results ++ [(c, r.isOk)])
      { job with task := settled job.task r.toOption, journal := j } := by
  have hlength : (results ++ [(c, r.isOk)]).length = results.length + 1 := List.length_append
  have hprogress := fun skipped => @Progress.Bounded.add _ total h.bounded 1 (h.room hroom) skipped
  refine { h with
    task := ?_, counts := ?_, within := ?_, bounded := ?_, processed := ?_, skipped := ?_
    holds := ?_, stopped := hstopped.trans h.stopped, ready := hdisk ▸ h.ready }
  · cases r with
    | ok c' => rw [Except.toOption, settled, h.task]
    | error f => rw [Except.toOption, settled, h.task]
  · rw [Results.counted_concat]
    cases r with
    | ok c' => exact h.counts.record (hextends c' rfl)
    | error f => exact (List.append_nil _).symm ▸ h.counts
  · rw [hlength]
    cases r with
    | ok c' => exact h.within.record (ResolutionTally.writable_of_extends (hextends c' rfl) hplain hfew)
    | error f => exact h.within.mono (Nat.le_succ _)
  · cases r with
    | ok c' => exact hprogress false
    | error f => exact hprogress true
  · have hprocessed : job.task.progress.processed + 1 = (results.length + 1 : Nat) :=
      congrArg (· + 1) h.processed
    rw [hlength]
    cases r with
    | ok c' => exact hprocessed
    | error f => exact hprocessed
  · rw [Results.skipped_concat]
    cases r with
    | ok c' => exact h.skipped
    | error f => exact congrArg (· + 1) h.skipped
  · rw [Results.returned_concat]
    exact hholds

variable [Seconds α]

/-- On a client with so many rounds, what holds of the outcomes of analyses and of the messages goes on
to hold with the analysis of a contract with several patterns. -/
def Decides (out : Outside α) (catalog : List Definition) (rounds : Int)
    (holds : List Bool → List Post → Prop) : Prop :=
  ∀ (l : Line α) (urls : List Json), l.client.endpoints = .list urls → urls ≠ [] →
    l.client.rounds = rounds → ∀ (record : ContractRecord) (found : List Match),
      Detection.inText catalog record.bytecode = .ok found → 1 < found.length →
      ∀ returned : List Bool, holds returned l.journal.posts →
        let asked := (Analysis.resolve out (some record.chainId) record found).go l
        holds (returned ++ [asked.1.isOk]) asked.2.journal.posts

structure Visiting (start : Resolve α) (total : Nat) (holds : List Bool → List Post → Prop)
    (chains : List String) (results : Results) (v : Visit α) : Prop
    extends Resolving start total holds chains results v.job where
  urls : ∃ urls, v.client.endpoints = .list urls ∧ urls ≠ []
  rounds : v.client.rounds = start.task.rounds

variable {v : Visit α}

omit [Seconds α] in
theorem Visiting.journal (h : Visiting start total holds chains results v) {j : Journal α}
    (hposts : j.posts = v.job.journal.posts) (hstopped : j.stopped = v.job.journal.stopped)
    (hdisk : j.disk = v.job.journal.disk) :
    Visiting start total holds chains results { v with job := { v.job with journal := j } } :=
  ⟨h.toResolving.journal hposts hstopped hdisk, h.urls, h.rounds⟩

omit [Seconds α] in
theorem Visiting.lookup (h : Visiting start total holds chains results v)
    (hundisturbed : ∀ n, out.disturbance n = none) (address : String) (chainId : Int) :
    ∃ v', (Visit.working (Job.writing (Corpus.fetchCodes out (.str address) (.int chainId)))).go v =
        (.ok (out.codes chainId (Corpus.addressKey address)), v') ∧
      Visiting start total holds chains results v' := by
  unfold Visit.working Job.writing
  rw [Act.go_on, Act.go_on, Corpus.go_fetchCodes hundisturbed]
  exact ⟨_, rfl, h.journal rfl rfl rfl⟩

/-- The matches of a candidate are analyzed, and it is counted or skipped. -/
theorem Visiting.go_resolveMatches (h : Visiting start total holds chains results v)
    (hdecides : Decides out start.task.catalog start.task.rounds holds) {record : ContractRecord}
    {found : List Match} (hdetected : Detection.inText start.task.catalog record.bytecode = .ok found)
    (hseveral : 1 < found.length) (hfew : found.length ≤ Pattern.all.length)
    (hplain : Text.hasHalf record.address = false) (hroom : results.length < total)
    (chain address : String) :
    ∃ returned v', (resolveMatches out chain address record.chainId record found).go v = (.ok (), v') ∧
      Visiting start total holds chains
        (results ++ [(Classification.ofMatches record found, returned)]) v' := by
  obtain ⟨urls, hends, hurls⟩ := h.urls
  let asked := (Analysis.resolve out (some record.chainId) record found).go ⟨v.client, v.job.journal⟩
  have hkept : Line.setting asked.2 = Line.setting ⟨v.client, v.job.journal⟩ :=
    (Analysis.resolve_fails out (some record.chainId) record found).keeps _
  obtain ⟨hstopped, hdisk⟩ := Line.stopped_of_setting hkept
  have hholds := hdecides ⟨v.client, v.job.journal⟩ urls hends hurls h.rounds record found hdetected
    hseveral _ h.holds
  obtain ⟨logs, hgo⟩ := Resolve.go_resolveMatches h.bounded (h.room hroom) out chain address
    record.chainId record found
  simp only [Line.setting, Prod.mk.injEq] at hkept
  refine ⟨asked.1.isOk, _, hgo, ?_, ⟨urls, hkept.1.trans hends, hurls⟩, hkept.2.1.trans h.rounds⟩
  refine (h.toResolving.settle (fun c' hc' => ?_) hplain hfew hroom hholds hstopped hdisk).journal
    rfl rfl rfl
  exact Analysis.resolve_yields out (some record.chainId) record found _ c' hc'

/-- A candidate that the corpus has is counted when its analysis returns, and else skipped. -/
theorem Visiting.go_resolveCandidate (h : Visiting start total holds chains results v)
    (hcalm : Calm out) (hdecides : Decides out start.task.catalog start.task.rounds holds)
    {c : Classification} (hc : Known out start.task.catalog c) (hroom : results.length < total) :
    ∃ returned v', (resolveCandidate out (toString c.chainId) c.chainId (.str c.address)).go v =
        (.ok (), v') ∧
      Visiting start total holds chains (results ++ [(c, returned)]) v' := by
  obtain ⟨v₁, hlookup, hasked⟩ := h.lookup hcalm.undisturbed c.address c.chainId
  obtain ⟨x, hgo, htaken⟩ := exists_taken (toString c.chainId) hlookup
  rw [hasked.catalog] at htaken
  obtain ⟨code, record, found, hcodes, hsearch, hdetected, rfl⟩ := hc.code
  have hcount : (Classification.ofMatches record found).matchCount = found.length :=
    List.length_map _
  have hseveral : 1 < found.length := hcount ▸ hc.several
  have hfound := found_of_search hcodes hsearch hseveral
  cases htaken with
  | skipped _ hnone => exact absurd hfound (hnone record found)
  | analyzed hfound' =>
    obtain ⟨rfl, rfl⟩ := hfound.unique hfound'
    obtain ⟨returned, v', hx, hvisiting⟩ := hasked.go_resolveMatches hdecides hdetected hseveral
      (hcount ▸ hc.few) hc.plain hroom _ _
    exact ⟨returned, v', hgo.trans hx, hvisiting⟩

theorem Visiting.go_resolveAddresses (hcalm : Calm out)
    (hdecides : Decides out start.task.catalog start.task.rounds holds) {chainId : Int}
    (rest : List Classification) :
    ∀ {results : Results} {v : Visit α}, Visiting start total holds chains results v →
      (∀ c ∈ rest, Known out start.task.catalog c ∧ c.chainId = chainId) →
      results.length + rest.length ≤ total →
      ∃ more v', (resolveAddresses out (toString chainId) chainId
          (rest.map fun c => .str c.address)).go v = (.ok false, v') ∧
        more.map (·.1) = rest ∧ Visiting start total holds chains (results ++ more) v' := by
  induction rest with
  | nil =>
    intro results v h _ _
    exact ⟨[], v, rfl, rfl, (List.append_nil results).symm ▸ h⟩
  | cons c rest ih =>
    intro results v h hrest hroom
    rw [List.length_cons] at hroom
    obtain ⟨⟨hknown, rfl⟩, hrest⟩ := List.forall_mem_cons.1 hrest
    have hasked := @Visiting.journal α start total holds chains results v h
      { v.job.journal with stops := v.job.journal.stops + 1 } rfl rfl rfl
    obtain ⟨returned, v₁, hgo₁, h₁⟩ := hasked.go_resolveCandidate hcalm hdecides hknown (by omega)
    obtain ⟨more, v₂, hgo₂, hmore, h₂⟩ := ih h₁ hrest (by rw [List.length_append]; simp; omega)
    refine ⟨(c, returned) :: more, v₂, ?_, by rw [List.map_cons, hmore], ?_⟩
    · rw [List.map_cons, resolveAddresses]
      unfold Visit.working
      rw [Act.go_bind, Act.go_on, h.go_shouldStop hcalm.untold]
      dsimp only
      change Act.go (resolveCandidate out _ _ _ >>= _) _ = _
      rw [Act.go_bind, hgo₁]
      exact hgo₂
    · rwa [List.append_assoc] at h₂

end ProxyCensus.Resolve
