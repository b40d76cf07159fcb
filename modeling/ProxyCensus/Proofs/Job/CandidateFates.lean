import ProxyCensus.Job.Resolve
import ProxyCensus.Proofs.Analysis
import ProxyCensus.Proofs.Progress

/-!
# What becomes of a candidate

A candidate whose code was looked up is counted as its analysis says, or it is skipped, and nothing
else is done with it. Main statement: it is counted exactly when the corpus has one code for it, a record
can be made of the code and searched, detection finds several patterns, and the analysis returns.
-/

namespace ProxyCensus.Resolve

variable {α : Type}

/-- The corpus has one code for a candidate, a record is made of it, and detection finds several
patterns. -/
structure Found (out : Outside α) (catalog : List Definition) (chain : String) (chainId : Int)
    (address : String) (record : ContractRecord) (found : List Match) : Prop where
  code : ∃ code, out.codes chainId (Corpus.addressKey address) = [code] ∧
    ContractRecord.ofCode (.str chain) (.str address) code = .ok record
  detected : Detection.inText catalog record.bytecode = .ok found
  several : 2 ≤ found.length

theorem search_eq_ok_iff {catalog : List Definition} {chain : String} {address code : Json}
    {record : ContractRecord} {found : List Match} :
    search catalog chain address code = .ok (record, found) ↔
      ContractRecord.ofCode (.str chain) address code = .ok record ∧
        Detection.inText catalog record.bytecode = .ok found := by
  unfold search
  rw [bind_eq_ok_iff]
  constructor
  · rintro ⟨record', hrecord, h⟩
    obtain ⟨found', hfound, h⟩ := bind_eq_ok_iff.1 h
    obtain ⟨rfl, rfl⟩ := Prod.mk.inj (Except.ok.inj h)
    exact ⟨hrecord, hfound⟩
  · rintro ⟨hrecord, hfound⟩
    exact ⟨record, hrecord, bind_eq_ok_iff.2 ⟨found, hfound, rfl⟩⟩

variable {out : Outside α} {catalog : List Definition} {chain address : String} {chainId : Int}
  {code : Json} {record record' : ContractRecord} {found found' : List Match}

theorem Found.search (h : Found out catalog chain chainId address record found)
    (hcode : out.codes chainId (Corpus.addressKey address) = [code]) :
    Resolve.search catalog chain (.str address) code = .ok (record, found) := by
  obtain ⟨code', hcode', hrecord⟩ := h.code
  obtain rfl := List.singleton_inj.1 (hcode.symm.trans hcode')
  exact search_eq_ok_iff.2 ⟨hrecord, h.detected⟩

theorem found_of_search (hcode : out.codes chainId (Corpus.addressKey address) = [code])
    (hsearch : Resolve.search catalog chain (.str address) code = .ok (record, found))
    (hseveral : 2 ≤ found.length) : Found out catalog chain chainId address record found := by
  obtain ⟨hrecord, hfound⟩ := search_eq_ok_iff.1 hsearch
  exact ⟨⟨code, hcode, hrecord⟩, hfound, hseveral⟩

theorem not_found_of_codes (hlength : (out.codes chainId (Corpus.addressKey address)).length ≠ 1) :
    ¬Found out catalog chain chainId address record found := by
  intro h
  obtain ⟨code, hcode, -⟩ := h.code
  rw [hcode] at hlength
  exact hlength rfl

theorem Found.unique (h : Found out catalog chain chainId address record found)
    (h' : Found out catalog chain chainId address record' found') :
    record' = record ∧ found' = found := by
  obtain ⟨code, hcode, -⟩ := h.code
  exact Prod.mk.inj (Except.ok.inj ((h'.search hcode).symm.trans (h.search hcode)))

theorem go_tracking {job : Resolve α} {total : Nat} (h : job.task.progress.Bounded total)
    (hroom : job.task.progress.processed < total) (skipped : Bool) :
    ∃ logs, (tracking (Tracked.track 1 skipped)).go job = (.ok (), { job with
      task := { job.task with progress := job.task.progress.add 1 skipped }
      journal := { job.journal with logs := logs } }) := by
  obtain ⟨logs, hlogs⟩ := @Tracked.go_track_bounded α ⟨job.task.progress, job.journal⟩ total h 1
    hroom skipped
  refine ⟨logs, ?_⟩
  change (tracking (Tracked.track (1 : Nat) skipped)).go job = _
  unfold tracking
  rw [Act.go_on, hlogs]
  rfl

/-- A count within the doubles ends; the date is read once if it has started. -/
theorem go_tracking_finish (out : Outside α) {job : Resolve α}
    (h : job.task.progress.processed.natAbs < 2 ^ 255) :
    ∃ logs, (tracking (Tracked.finish out)).go job = (.ok (), { job with
      task := { job.task with progress := { job.task.progress with started := none } }
      journal := { job.journal with
        dates := job.journal.dates + job.task.progress.started.toList.length
        logs := logs } }) := by
  obtain ⟨dates, logs, hgo⟩ := @Tracked.go_finish α out ⟨job.task.progress, job.journal⟩ h
  have hdates := Tracked.dates_finish out ⟨job.task.progress, job.journal⟩
  rw [hgo] at hdates
  obtain rfl : dates = _ := hdates
  refine ⟨logs, ?_⟩
  rw [tracking, Act.go_on, hgo]

theorem go_close (v : Visit α) :
    ∃ l : Line α, (Visit.asking Line.close).go v =
        (.ok (), { client := l.client, job := { v.job with journal := l.journal } }) ∧
      Line.setting l = Line.setting ⟨v.client, v.job.journal⟩ := by
  obtain ⟨l, hclose⟩ := Line.go_close (⟨v.client, v.job.journal⟩ : Line α)
  refine ⟨l, ?_, Line.keeps_close.of_go hclose⟩
  rw [Visit.asking, Act.go_on, hclose]

theorem closing_keeps_posts :
    Act.Keeps (fun v : Visit α => v.job.journal.posts) (Visit.asking Line.close) :=
  .on Line.close_keeps_posts fun _ _ h => h

/-- Asking for codes is putting a question; what comes in its way does not change the answer. -/
theorem go_fetchCodes (out : Outside α) (address : String) (chain : Int) (j : Journal α) :
    (Corpus.fetchCodes out (.str address) (.int chain)).go j =
      (((Corpus.query out (.code (Corpus.addressKey address) chain)).go j).1.map
          fun _ => out.codes chain (Corpus.addressKey address),
        ((Corpus.query out (.code (Corpus.addressKey address) chain)).go j).2) := by
  change Act.go (Corpus.query out (.code (Corpus.addressKey address) chain) >>= _) j = _
  rw [Act.go_bind]
  rcases (Corpus.query out (.code (Corpus.addressKey address) chain)).go j with ⟨r, j'⟩
  cases r <;> rfl

theorem codes_of_lookup {v v₁ : Visit α} {codes : List Json}
    (h : (Visit.working (Job.writing (Corpus.fetchCodes out (.str address) (.int chainId)))).go v =
      (.ok codes, v₁)) : codes = out.codes chainId (Corpus.addressKey address) := by
  have hresult := congrArg Prod.fst h
  change ((Corpus.fetchCodes out (.str address) (.int chainId)).go v.job.journal).1 = _ at hresult
  rw [go_fetchCodes] at hresult
  cases hasked : ((Corpus.query out (.code (Corpus.addressKey address) chainId)).go
      v.job.journal).1 with
  | ok _ =>
    rw [hasked] at hresult
    exact (Except.ok.inj hresult).symm
  | error f =>
    rw [hasked] at hresult
    cases hresult

variable [Seconds α]

/-- What becomes of a candidate whose analysis would begin with a client and a journal: it is counted as a
classification exactly when it is found and its analysis returns this classification, and otherwise it is
skipped. -/
def Fate (out : Outside α) (catalog : List Definition) (chain : String) (chainId : Int)
    (address : String) (l : Line α) (fate : Option Classification) : Prop :=
  ∀ c, fate = some c ↔ ∃ record found, Found out catalog chain chainId address record found ∧
    ((Analysis.resolve out (some chainId) record found).go l).1 = .ok c

theorem fate_none_of_not_found {l : Line α}
    (h : ∀ record found, ¬Found out catalog chain chainId address record found) :
    Fate out catalog chain chainId address l none :=
  fun _ => ⟨fun hc => (by cases hc), fun ⟨record, found, hfound, _⟩ => absurd hfound (h record found)⟩

theorem Found.fate (h : Found out catalog chain chainId address record found) (l : Line α) :
    Fate out catalog chain chainId address l
      ((Analysis.resolve out (some chainId) record found).go l).1.toOption := by
  intro c
  constructor
  · intro hc
    exact ⟨record, found, h, eq_ok_of_toOption hc⟩
  · rintro ⟨record', found', h', hasked⟩
    obtain ⟨rfl, rfl⟩ := h.unique h'
    rw [hasked]
    rfl

omit [Seconds α] in
def settled (task : ResolveTask α) : Option Classification → ResolveTask α
  | some c => { task with tally := task.tally.record c, progress := task.progress.add 1 false }
  | none => { task with progress := task.progress.add 1 true }

/-- A computation settles what becomes of a candidate, and leaves everything else alone but the messages
and what requests change. -/
def Disposes (out : Outside α) (chain : String) (chainId : Int) (address : String)
    (x : Act (Visit α) Unit) (v : Visit α) : Prop :=
  ∃ fate v', x.go v = (.ok (), v') ∧
    Fate out v.job.task.catalog chain chainId address ⟨v.client, v.job.journal⟩ fate ∧
    v'.job = { v.job with task := settled v.job.task fate, journal := v'.job.journal } ∧
    Line.setting ⟨v'.client, v'.job.journal⟩ = Line.setting ⟨v.client, v.job.journal⟩

variable {v : Visit α} {total : Nat}

omit [Seconds α] in
theorem go_skipWith (hbounded : v.job.task.progress.Bounded total)
    (hroom : v.job.task.progress.processed < total) (level : Level) (message : String) :
    ∃ logs, (Visit.working (skipWith level message)).go v = (.ok (), { v with job := { v.job with
      task := settled v.job.task none
      journal := { v.job.journal with logs := logs } } }) := by
  obtain ⟨logs, hgo⟩ := @go_tracking α { v.job with
    journal := { v.job.journal with logs := v.job.journal.logs.push ⟨level, logger, message⟩ } }
    total hbounded hroom true
  refine ⟨logs, ?_⟩
  rw [Visit.working, Act.go_on]
  exact congrArg (fun p : Except Failure Unit × Resolve α => (p.1, { v with job := p.2 })) hgo

/-- A candidate whose matches are known is counted as its analysis says, or skipped when the analysis
fails. -/
theorem go_resolveMatches (hbounded : v.job.task.progress.Bounded total)
    (hroom : v.job.task.progress.processed < total) (out : Outside α) (chain address : String)
    (chainId : Int) (record : ContractRecord) (found : List Match) :
    let asked := (Analysis.resolve out (some chainId) record found).go ⟨v.client, v.job.journal⟩
    ∃ logs, (resolveMatches out chain address chainId record found).go v =
      (.ok (), ⟨asked.2.client, { v.job with
        task := settled v.job.task asked.1.toOption
        journal := { asked.2.journal with logs := logs } }⟩) := by
  intro asked
  have hasked : (Visit.asking (Analysis.resolve out (some chainId) record found)).go v =
      (asked.1, ⟨asked.2.client, { v.job with journal := asked.2.journal }⟩) := rfl
  unfold resolveMatches
  rw [Act.go_bind, Act.go_outcome, hasked]
  cases asked.1 with
  | ok c =>
    obtain ⟨logs, hgo⟩ := @go_tracking α { v.job with
      task := { v.job.task with tally := v.job.task.tally.record c }, journal := asked.2.journal }
      total hbounded hroom false
    refine ⟨logs, ?_⟩
    dsimp only
    rw [Visit.working, Act.go_on]
    exact congrArg (fun p : Except Failure Unit × Resolve α =>
      (p.1, (⟨asked.2.client, p.2⟩ : Visit α))) hgo
  | error f =>
    obtain ⟨logs, hgo⟩ := @go_skipWith α ⟨asked.2.client, { v.job with journal := asked.2.journal }⟩
      total hbounded hroom .error
      s!"Unexpected error resolving address {address} on chain {chain}: {f.describe}"
    exact ⟨logs, hgo⟩

/-- What is done with a candidate after its code was looked up: it is skipped with a warning or an error
if it is not found, and its matches are analyzed if it is. -/
inductive Taken (out : Outside α) (catalog : List Definition) (chain : String) (chainId : Int)
    (address : String) : Act (Visit α) Unit → Prop
  | skipped {level : Level} {message : String} (hlevel : level = .warning ∨ level = .error)
    (hnone : ∀ record found, ¬Found out catalog chain chainId address record found) :
    Taken out catalog chain chainId address (Visit.working (skipWith level message))
  | analyzed {record : ContractRecord} {found : List Match}
    (h : Found out catalog chain chainId address record found) :
    Taken out catalog chain chainId address (resolveMatches out chain address chainId record found)

theorem exists_taken_of_code (hcode : out.codes chainId (Corpus.addressKey address) = [code])
    (v : Visit α) :
    ∃ x, (resolveCode out chain chainId (.str address) code).go v = x.go v ∧
      Taken out v.job.task.catalog chain chainId address x := by
  unfold resolveCode
  rw [Act.go_bind, Act.go_state]
  dsimp only
  cases hsearch : search v.job.task.catalog chain (.str address) code with
  | error f =>
    have hnone : ∀ record found, ¬Found out v.job.task.catalog chain chainId address record found := by
      intro record found h
      cases hsearch.symm.trans (h.search hcode)
    dsimp only
    unfold skipUnsearched
    split
    · exact ⟨_, rfl, .skipped (.inl rfl) hnone⟩
    · exact ⟨_, rfl, .skipped (.inr rfl) hnone⟩
  | ok searched =>
    obtain ⟨record, found⟩ := searched
    dsimp only
    by_cases hfew : found.length < 2
    · rw [if_pos hfew]
      refine ⟨_, rfl, .skipped (.inl rfl) fun record' found' h => ?_⟩
      obtain ⟨-, rfl⟩ := Prod.mk.inj (Except.ok.inj (hsearch.symm.trans (h.search hcode)))
      exact Nat.not_lt_of_le h.several hfew
    · rw [if_neg hfew]
      exact ⟨_, rfl, .analyzed (found_of_search hcode hsearch (Nat.le_of_not_lt hfew))⟩

/-- With the codes that were looked up it is known what is done with a candidate. -/
theorem exists_taken (chain : String) {v₁ : Visit α} {codes : List Json}
    (hlookup : (Visit.working (Job.writing (Corpus.fetchCodes out (.str address) (.int chainId)))).go
      v = (.ok codes, v₁)) :
    ∃ x, (resolveCandidate out chain chainId (.str address)).go v = x.go v₁ ∧
      Taken out v₁.job.task.catalog chain chainId address x := by
  have hcodes := codes_of_lookup hlookup
  unfold resolveCandidate
  rw [Act.go_bind, hlookup]
  rcases codes with _ | ⟨code, _ | ⟨second, rest⟩⟩
  · exact ⟨_, rfl, .skipped (.inl rfl) fun _ _ => not_found_of_codes (by simp [← hcodes])⟩
  · exact exists_taken_of_code hcodes.symm v₁
  · exact ⟨_, rfl, .skipped (.inl rfl) fun _ _ => not_found_of_codes (by simp [← hcodes])⟩

theorem Taken.disposes {x : Act (Visit α) Unit} (h : Taken out v.job.task.catalog chain chainId address x)
    (hbounded : v.job.task.progress.Bounded total) (hroom : v.job.task.progress.processed < total) :
    Disposes out chain chainId address x v := by
  cases h with
  | skipped _ hnone =>
    obtain ⟨logs, hgo⟩ := go_skipWith hbounded hroom _ _
    exact ⟨none, _, hgo, fate_none_of_not_found hnone, rfl, rfl⟩
  | analyzed h =>
    obtain ⟨logs, hgo⟩ := go_resolveMatches hbounded hroom out chain address chainId _ _
    exact ⟨_, _, hgo, h.fate _, rfl, (Analysis.resolve_fails out (some chainId) _ _).keeps _⟩

theorem disposes_resolveCode (hcode : out.codes chainId (Corpus.addressKey address) = [code])
    (hbounded : v.job.task.progress.Bounded total) (hroom : v.job.task.progress.processed < total) :
    Disposes out chain chainId address (resolveCode out chain chainId (.str address) code) v := by
  obtain ⟨x, hgo, htaken⟩ := exists_taken_of_code hcode v
  obtain ⟨fate, v', hx, hdisposes⟩ := htaken.disposes hbounded hroom
  exact ⟨fate, v', hgo.trans hx, hdisposes⟩

theorem exists_disposes (chain : String) {v₁ : Visit α} {codes : List Json}
    (hlookup : (Visit.working (Job.writing (Corpus.fetchCodes out (.str address) (.int chainId)))).go
      v = (.ok codes, v₁)) (hbounded : v₁.job.task.progress.Bounded total)
    (hroom : v₁.job.task.progress.processed < total) :
    ∃ x, (resolveCandidate out chain chainId (.str address)).go v = x.go v₁ ∧
      Disposes out chain chainId address x v₁ := by
  obtain ⟨x, hgo, htaken⟩ := exists_taken chain hlookup
  exact ⟨x, hgo, htaken.disposes hbounded hroom⟩

end ProxyCensus.Resolve
