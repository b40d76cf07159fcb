import ProxyCensus.Proofs.Job.ResolveListings

/-!
# Inert candidates

A candidate of a chain that has a node and a number is not analyzed when the corpus has no code or several
codes for it, when no record can be made of its code, when its code cannot be searched, and when detection
finds fewer than two patterns in it. Main statement: such candidates make no difference but to the
questions to the corpus, the messages, the counters of the progress and how often the run asks whether to
stop, wherever they are listed and however many they are.
-/

namespace ProxyCensus.Resolve

variable {α : Type}

/-- Why a candidate of a chain with a node is not analyzed. -/
inductive Unusable (out : Outside α) (catalog : List Definition) (chain : String) (chainId : Int)
    (address : String) : Prop where
  | missing (h : out.codes chainId (Corpus.addressKey address) = [])
  | several (h : 1 < (out.codes chainId (Corpus.addressKey address)).length)
  | noRecord {code : Json} {f : Failure} (hcode : out.codes chainId (Corpus.addressKey address) = [code])
    (h : ContractRecord.ofCode (.str chain) (.str address) code = .error f)
  | noBytecode {code : Json} {record : ContractRecord} {f : Failure}
    (hcode : out.codes chainId (Corpus.addressKey address) = [code])
    (hrecord : ContractRecord.ofCode (.str chain) (.str address) code = .ok record)
    (h : Detection.inText catalog record.bytecode = .error f)
  | fewMatches {code : Json} {record : ContractRecord} {found : List Match}
    (hcode : out.codes chainId (Corpus.addressKey address) = [code])
    (hrecord : ContractRecord.ofCode (.str chain) (.str address) code = .ok record)
    (hfound : Detection.inText catalog record.bytecode = .ok found) (h : found.length < 2)

/-- Some addresses with others put in between. -/
inductive Inserted (extra : String → Prop) : List String → List String → Prop where
  | nil : Inserted extra [] []
  | keep {addresses addresses' : List String} (address : String)
    (h : Inserted extra addresses addresses') :
    Inserted extra (address :: addresses) (address :: addresses')
  | insert {addresses addresses' : List String} {address : String} (hextra : extra address)
    (h : Inserted extra addresses addresses') : Inserted extra addresses (address :: addresses')

/-- The same chain, to which unusable candidates may be added if it has a node and a number. -/
def Grown (out : Outside α) (catalog : List Definition) (nodes : List (String × Json))
    (e e' : String × List String) : Prop :=
  e'.1 = e.1 ∧ (e'.2 = e.2 ∨ ∃ chainId, numberOf? nodes e.1 = some chainId ∧
    Inserted (Unusable out catalog e.1 chainId) e.2 e'.2)

variable {out : Outside α} {catalog : List Definition} {chain address : String} {chainId : Int}

theorem Unusable.not_found (h : Unusable out catalog chain chainId address) (record : ContractRecord)
    (found : List Match) : ¬Found out catalog chain chainId address record found := by
  intro hfound
  obtain ⟨code, hcode, hrecord⟩ := hfound.code
  have hdetected := hfound.detected
  cases h with
  | missing h => exact List.cons_ne_nil code [] (hcode.symm.trans h)
  | several h =>
    rw [hcode] at h
    exact absurd h (Nat.lt_irrefl 1)
  | noRecord hcode' h =>
    obtain rfl := List.singleton_inj.1 (hcode.symm.trans hcode')
    cases hrecord.symm.trans h
  | noBytecode hcode' hrecord' h =>
    obtain rfl := List.singleton_inj.1 (hcode.symm.trans hcode')
    obtain rfl := Except.ok.inj (hrecord.symm.trans hrecord')
    cases hdetected.symm.trans h
  | fewMatches hcode' hrecord' hfound' h =>
    obtain rfl := List.singleton_inj.1 (hcode.symm.trans hcode')
    obtain rfl := Except.ok.inj (hrecord.symm.trans hrecord')
    obtain rfl := Except.ok.inj (hdetected.symm.trans hfound')
    exact Nat.not_lt_of_le hfound.several h

/-- A candidate of which the corpus has one code is unusable unless the code can be searched and several
patterns are found in it. -/
theorem unusable_of_search (code : Json) (hcode : out.codes chainId (Corpus.addressKey address) = [code])
    (h : (search catalog chain (.str address) code).toOption.all (·.2.length < 2) = true) :
    Unusable out catalog chain chainId address := by
  cases hrecord : ContractRecord.ofCode (.str chain) (.str address) code with
  | error f => exact .noRecord hcode hrecord
  | ok record =>
    cases hfound : Detection.inText catalog record.bytecode with
    | error f => exact .noBytecode hcode hrecord hfound
    | ok found =>
      rw [search_eq_ok_iff.2 ⟨hrecord, hfound⟩] at h
      exact .fewMatches hcode hrecord hfound (of_decide_eq_true h)

/-- There are no other reasons why a candidate is not found. -/
theorem unusable_iff_not_found : Unusable out catalog chain chainId address ↔
    ∀ record found, ¬Found out catalog chain chainId address record found := by
  refine ⟨fun h => h.not_found, fun h => ?_⟩
  rcases hcodes : out.codes chainId (Corpus.addressKey address) with _ | ⟨code, _ | ⟨second, rest⟩⟩
  · exact .missing hcodes
  · refine unusable_of_search code hcodes ?_
    cases hsearch : search catalog chain (.str address) code with
    | error f => rfl
    | ok found =>
      refine decide_eq_true (Nat.lt_of_not_le fun hseveral => ?_)
      exact h found.1 found.2 (found_of_search hcodes hsearch hseveral)
  · exact .several (by rw [hcodes]; simp)

theorem Inserted.refl (extra : String → Prop) (addresses : List String) :
    Inserted extra addresses addresses := by
  induction addresses with
  | nil => exact .nil
  | cons address rest ih => exact .keep address ih

theorem Inserted.length_le {extra : String → Prop} {addresses addresses' : List String}
    (h : Inserted extra addresses addresses') : addresses.length ≤ addresses'.length := by
  induction h with
  | nil => exact Nat.le_refl 0
  | keep address _ ih => exact Nat.succ_le_succ ih
  | insert _ _ ih => exact ih.trans (Nat.le_succ _)

theorem listedCount_le_of_grown {nodes : List (String × Json)}
    {listed listed' : List (String × List String)}
    (h : List.Forall₂ (Grown out catalog nodes) listed listed') :
    listedCount listed ≤ listedCount listed' := by
  induction h with
  | nil => exact Nat.le_refl _
  | @cons e e' rest rest' hgrown _ ih =>
    have hlength : e.2.length ≤ e'.2.length := by
      rcases hgrown.2 with hsame | ⟨_, _, hinserted⟩
      · exact Nat.le_of_eq (congrArg List.length hsame).symm
      · exact hinserted.length_le
    simp only [listedCount, List.map_cons, List.sum_cons] at ih ⊢
    omega

variable {nodes : List (String × Json)} {total total' : Nat}

theorem matched_of_inserted {addresses addresses' : List String}
    (h : Inserted (Unusable out catalog chain chainId) addresses addresses') :
    Matched out catalog chain chainId (addresses.map .str) (addresses'.map .str) := by
  induction h with
  | nil => exact .nil
  | keep address _ ih => exact .keep (fun _ _ => Iff.rfl) ih
  | insert hextra _ ih => exact .insert hextra.not_found ih

theorem matched_of_grown {listed listed' : List (String × List String)}
    (h : List.Forall₂ (Grown out catalog nodes) listed listed') :
    List.Forall₂ (MatchedEntry out catalog nodes) (listing listed) (listing listed') := by
  induction h with
  | nil => exact .nil
  | @cons e e' rest rest' he _ ih =>
    refine .cons ⟨he.1, ⟨Option.some_ne_none _, Option.some_ne_none _⟩, fun chainId hnumber => ?_⟩ ih
    refine matched_of_inserted ?_
    rcases he.2 with hsame | ⟨chainId', hnumber', hinserted⟩
    · rw [hsame]
      exact .refl _ _
    · obtain rfl := Option.some.inj (hnumber.symm.trans hnumber')
      exact hinserted

variable [Seconds α]

/-- The chains are worked on alike when unusable candidates are added to them. -/
theorem Abreast.go_resolveChains (hcalm : Calm out) {chains chains' : List (String × List String)}
    (hgrown : List.Forall₂ (Grown out catalog nodes) chains chains') {job job' : Resolve α}
    (h : Abreast catalog nodes total (listedCount chains) total' (listedCount chains') job job') :
    ∃ r w w', (resolveChains out (listing chains)).go job = (r, w) ∧
      (resolveChains out (listing chains')).go job' = (r, w') ∧
      Abreast catalog nodes total 0 total' 0 w w' := by
  rw [← itemCount_listing, ← itemCount_listing] at h
  exact h.go_resolveEntries hcalm (matched_of_grown hgrown)

omit [Seconds α] in
theorem abreast_begin (out : Outside α) (catalog : List Definition) (folder : Folder)
    (listed listed' : List (String × List String)) (nodes : List (String × Json)) (rounds : Int)
    (timeout : Float) (interval : α) (journal : Journal α) (hstopped : journal.stopped = false) :
    ∃ begun begun',
      (begin out).go (ofListed catalog folder listed nodes rounds timeout interval journal) =
        (.ok (), begun) ∧
      (begin out).go (ofListed catalog folder listed' nodes rounds timeout interval journal) =
        (.ok (), begun') ∧
      begun.task.candidates = listing listed ∧ begun'.task.candidates = listing listed' ∧
      Abreast catalog nodes (listedCount listed) (listedCount listed) (listedCount listed')
        (listedCount listed') begun begun' :=
  begin_abreast out catalog folder (totalListed_listing listed) (totalListed_listing listed') nodes rounds
    timeout interval hstopped

/-- Unusable candidates are inert. In a calm run they may be added anywhere to the chains that have a node
and a number: what happens on the network, the tally, the files and everything else stays as it was, but
for the candidates themselves, the progress, the messages, the questions to the corpus and how often the
run asks whether to stop. -/
theorem unusable_candidates_inert (hcalm : Calm out) (catalog : List Definition) (folder : Folder)
    {listed listed' : List (String × List String)} (nodes : List (String × Json)) (rounds : Int)
    (timeout : Float) (interval : α) (journal : Journal α) (hstopped : journal.stopped = false)
    (hgrown : List.Forall₂ (Grown out catalog nodes) listed listed')
    (hfew : listedCount listed' < 2 ^ 255) :
    ∃ result last last',
      (run out).go (ofListed catalog folder listed nodes rounds timeout interval journal) =
        (result, last) ∧
      (run out).go (ofListed catalog folder listed' nodes rounds timeout interval journal) =
        (result, last') ∧
      last' = { last with
        task := { last.task with
          candidates := last'.task.candidates
          progress := last'.task.progress }
        journal := { last.journal with
          logs := last'.journal.logs
          queries := last'.journal.queries
          stops := last'.journal.stops } } := by
  have hless := listedCount_le_of_grown hgrown
  obtain ⟨begun, begun', hbegin, hbegin', hcandidates, hcandidates', hbegun⟩ :=
    abreast_begin out catalog folder listed listed' nodes rounds timeout interval journal hstopped
  generalize ofListed catalog folder listed nodes rounds timeout interval journal = start at hbegin ⊢
  generalize ofListed catalog folder listed' nodes rounds timeout interval journal = start' at hbegin' ⊢
  obtain ⟨r, worked, worked', hwork, hwork', hworked⟩ := hbegun.go_resolveChains hcalm hgrown
  obtain ⟨settled, settled', hsettle, hsettle', h⟩ := hworked.settle r
  have hended := (go_phases hbegin ((go_work hcandidates).trans hwork)).trans hsettle
  have hended' := (go_phases hbegin' ((go_work hcandidates').trans hwork')).trans hsettle'
  have hlast := finish_alike out h.bare (h.going.bounded.small (by omega)) (h.going'.bounded.small hfew)
  have hrun : ((run out).go start).1 = ((run out).go start').1 ∧
      ((run out).go start).2.bare = ((run out).go start').2.bare :=
    Act.Alike.andFinally hended hended' hlast
  generalize (run out).go start = ran at hrun ⊢
  generalize (run out).go start' = ran' at hrun ⊢
  obtain ⟨result, last⟩ := ran
  obtain ⟨result', last'⟩ := ran'
  obtain ⟨rfl, hbare⟩ := hrun
  obtain ⟨candidates, total, processed, skipped, logs, queries, stops, rfl⟩ := exists_of_bare hbare
  exact ⟨result, last, _, rfl, rfl, rfl⟩

def fortyOf (digit : Char) : String :=
  String.ofList ('0' :: 'x' :: List.replicate 40 digit)

/-- The corpus has one code with two patterns, and others of which each is unusable in its own way. -/
def mixedCodes : Outside Rat :=
  { oneOfFive with
    codes := fun _ key => match key.toList with
      | '1' :: _ => [.str "0x635c60da1b6359659e90f4"]
      | '3' :: _ => [.null, .null]
      | '4' :: _ => [.int 1]
      | '5' :: _ => [.str "0xzz"]
      | '6' :: _ => [.str "0x6001"]
      | _ => [] }

def startOnOneChain (digits : List Char) : Resolve Rat :=
  ofListed Catalog.builtIn ⟨["out"], "out"⟩ [("1", digits.map fortyOf)] [("1", .str "http://rpc")] 1 30 0
    { clock := 0 }

theorem unusable_candidates_inert_around_one :
    ∃ result last last', (run mixedCodes).go (startOnOneChain ['1']) = (result, last) ∧
      (run mixedCodes).go (startOnOneChain ['2', '3', '1', '4', '5', '6']) = (result, last') ∧
      last.completed = true ∧ last.task.tally.processed = 1 ∧
      last'.journal.trace = last.journal.trace ∧ last'.task.tally = last.task.tally ∧
      last'.journal.disk = last.journal.disk := by
  have hmarks : ((run mixedCodes).go (startOnOneChain ['1'])).2.completed = true ∧
      ((run mixedCodes).go (startOnOneChain ['1'])).2.task.tally.processed = 1 := by
    decide +kernel
  have hinserted : Inserted (Unusable mixedCodes Catalog.builtIn "1" 1) (['1'].map fortyOf)
      (['2', '3', '1', '4', '5', '6'].map fortyOf) := by
    refine .insert (.missing (List.eq_nil_of_length_eq_zero (by decide +kernel))) <|
      .insert (.several (by decide +kernel)) <| .keep _ <|
      .insert (unusable_of_search (.int 1) rfl (by decide +kernel)) <|
      .insert (unusable_of_search (.str "0xzz") rfl (by decide +kernel)) <|
      .insert (unusable_of_search (.str "0x6001") rfl (by decide +kernel)) .nil
  have hcalm : Calm mixedCodes := ⟨fun _ => rfl, fun _ => rfl, fun _ => rfl⟩
  have hgrown : Grown mixedCodes Catalog.builtIn [("1", .str "http://rpc")] ("1", ['1'].map fortyOf)
      ("1", ['2', '3', '1', '4', '5', '6'].map fortyOf) :=
    ⟨rfl, .inr ⟨1, by decide +kernel, hinserted⟩⟩
  obtain ⟨result, last, last', hrun, hrun', heq⟩ :=
    unusable_candidates_inert hcalm Catalog.builtIn ⟨["out"], "out"⟩ [("1", .str "http://rpc")] 1 30 0
      { clock := 0 } rfl (.cons hgrown .nil) (by decide)
  change (run mixedCodes).go (startOnOneChain ['1']) = (result, last) at hrun
  change (run mixedCodes).go (startOnOneChain ['2', '3', '1', '4', '5', '6']) = (result, last') at hrun'
  rw [hrun] at hmarks
  obtain ⟨hcompleted, hprocessed⟩ := hmarks
  refine ⟨result, last, last', hrun, hrun', hcompleted, hprocessed, ?_, ?_, ?_⟩
  all_goals rw [heq]

end ProxyCensus.Resolve
