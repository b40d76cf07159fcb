import ProxyCensus.Proofs.Job.ResolveThrough
import ProxyCensus.Proofs.Resolution.Stateless
import ProxyCensus.Proofs.Tally.Order

/-!
# The order of candidates

Before stateless nodes a candidate has the same fate whenever it is dealt with, and the tally of a
resolution is told from the fates of its candidates. Main statement: when the chains, and the candidates
of each chain, come in another order, the tally is the same but for that order.
-/

namespace ProxyCensus.Resolve

open ResolutionTally (Change change Reordered reordered_of_perm)

variable {α : Type}

/-- The changes that candidates of a chain make to the tally when their fates are known. -/
def addressChanges (fate : String → String → Option Classification) (chain : String)
    (addresses : List String) : List Change :=
  addresses.filterMap fun address => (fate chain address).map .contract

def entryChanges (nodes : List (String × Json)) (fate : String → String → Option Classification)
    (e : String × List String) : List Change :=
  if (numberOf? nodes e.1).isSome then .chain e.1 :: addressChanges fate e.1 e.2 else []

def changes (nodes : List (String × Json)) (fate : String → String → Option Classification)
    (listed : List (String × List String)) : List Change :=
  listed.flatMap (entryChanges nodes fate)

def Point.changes (nodes : List (String × Json)) (fate : String → String → Option Classification) :
    Point α → List Change
  | between chains _ => Resolve.changes nodes fate chains
  | within chain _ addresses chains _ =>
    addressChanges fate chain addresses ++ Resolve.changes nodes fate chains

def Rearranged (listed listed' : List (String × List String)) : Prop :=
  ∃ between, List.Forall₂ (fun e e' => e'.1 = e.1 ∧ e.2.Perm e'.2) listed between ∧
    between.Perm listed'

variable {nodes : List (String × Json)} {fate : String → String → Option Classification}
  {listed listed' : List (String × List String)}

/-- A rearrangement brings the same changes in another order. -/
theorem Rearranged.changes (h : Rearranged listed listed') :
    (Resolve.changes nodes fate listed).Perm (Resolve.changes nodes fate listed') := by
  obtain ⟨between, hforall, hperm⟩ := h
  refine List.Perm.trans ?_ (hperm.flatMap_right _)
  clear hperm
  induction hforall with
  | nil => exact .nil
  | @cons e e' _ _ he _ ih =>
    obtain ⟨hchain, haddresses⟩ := he
    refine List.Perm.append (?_ : (entryChanges nodes fate e).Perm (entryChanges nodes fate e')) ih
    unfold entryChanges
    rw [hchain]
    split
    · exact (haddresses.filterMap _).cons _
    · exact .nil

theorem Rearranged.listedCount_eq (h : Rearranged listed listed') :
    listedCount listed' = listedCount listed := by
  obtain ⟨between, hforall, hperm⟩ := h
  have hbetween : listedCount between = listedCount listed := by
    clear hperm
    induction hforall with
    | nil => rfl
    | cons he _ ih =>
      simp only [listedCount, List.map_cons, List.sum_cons] at ih ⊢
      rw [ih, he.2.length_eq]
  rw [← hbetween]
  exact (hperm.map _).sum_nat.symm

variable [Seconds α]

/-- A line on which a chain is worked on. -/
def Serves (task : ResolveTask α) (chain : String) (l : Line α) : Prop :=
  ∃ client : Client α, Client.ofUrl? ((Json.lookup? task.nodes chain).getD .null) task.rounds task.timeout
    task.interval = .ok client ∧ l.reach = (client.endpoints, client.rounds)

/-- Each candidate has one fate, whenever it is dealt with. -/
def Fates (out : Outside α) (task : ResolveTask α) (fate : String → String → Option Classification) :
    Prop :=
  ∀ {chain chainId address l}, numberOf? task.nodes chain = some chainId → Serves task chain l →
    Fate out task.catalog chain chainId address l (fate chain address)

/-- The clients of a chain serve it. -/
def Point.Served (task : ResolveTask α) : Point α → Prop
  | between _ _ => True
  | within chain _ _ _ v => Serves task chain v.line

variable {out : Outside α} {task : ResolveTask α} {chain address : String} {chainId : Int} {l l' : Line α}

theorem Serves.reach_eq (h : Serves task chain l) (h' : Serves task chain l') : l.reach = l'.reach := by
  obtain ⟨client, hclient, hreach⟩ := h
  obtain ⟨client', hclient', hreach'⟩ := h'
  obtain rfl := Except.ok.inj (hclient.symm.trans hclient')
  exact hreach.trans hreach'.symm

theorem exists_serves (hnumber : numberOf? task.nodes chain = some chainId) (journal : Journal α) :
    ∃ l, Serves task chain l := by
  obtain ⟨client, hclient⟩ :=
    Client.exists_ofUrl? (isSet_of_numberOf? hnumber) task.rounds task.timeout task.interval
  exact ⟨⟨client, journal⟩, client, hclient, rfl⟩

theorem Fate.unique {catalog : List Definition} {fate fate' : Option Classification}
    (h : Fate out catalog chain chainId address l fate)
    (h' : Fate out catalog chain chainId address l fate') :
    fate = fate' :=
  Option.ext fun c => (h c).trans (h' c).symm

/-- Before stateless nodes each candidate has one fate. -/
theorem exists_fates (hstateless : out.Stateless) (task : ResolveTask α) (journal : Journal α) :
    ∃ fate, Fates out task fate := by
  have hone : ∀ chain address, ∃ fate : Option Classification, ∀ chainId l,
      numberOf? task.nodes chain = some chainId → Serves task chain l →
      Fate out task.catalog chain chainId address l fate := by
    intro chain address
    cases hnumber : numberOf? task.nodes chain with
    | none => exact ⟨none, fun _ _ h => by cases h⟩
    | some chainId =>
      obtain ⟨l, hl⟩ := exists_serves hnumber journal
      by_cases hfound : ∃ record found, Found out task.catalog chain chainId address record found
      · obtain ⟨record, found, hfound⟩ := hfound
        refine ⟨((Analysis.resolve out (some chainId) record found).go l).1.toOption, ?_⟩
        intro chainId' l' hnumber' hl'
        obtain rfl := Option.some.inj hnumber'
        rw [Line.analysis_eq hstateless (hl.reach_eq hl')]
        exact hfound.fate l'
      · refine ⟨none, fun chainId' l' hnumber' _ => ?_⟩
        obtain rfl := Option.some.inj hnumber'
        exact fate_none_of_not_found fun record found h => hfound ⟨record, found, h⟩
  choose fate hfate using hone
  exact ⟨fate, fun hnumber hl => hfate _ _ _ _ hnumber hl⟩

/-- A contract is counted in the place where it is listed. -/
theorem Fate.place {catalog : List Definition} {c : Classification}
    (h : Fate out catalog chain chainId address l (some c)) :
    Text.integer chain = .ok c.chainId ∧ Address.normalize? address = some c.address := by
  obtain ⟨record, found, hfound, hasked⟩ := (h c).1 rfl
  have hextends := Analysis.resolve_yields out (some chainId) record found l c hasked
  obtain ⟨code, -, hrecord⟩ := hfound.code
  obtain ⟨hchain, s, hs, hnormal⟩ := ContractRecord.place_of_ofCode hrecord
  obtain rfl : address = s := Json.str.inj hs
  refine ⟨?_, ?_⟩
  · have hid : c.chainId = record.chainId := hextends.chainId
    cases hspelled : Text.integer chain with
    | ok n =>
      rw [Json.integer, hspelled] at hchain
      rw [hid, ← Except.ok.inj hchain]
    | error e =>
      rw [Json.integer, hspelled] at hchain
      cases hchain
  · rw [hnormal]
    exact congrArg some hextends.address.symm

theorem Fates.place (h : Fates out task fate) (hnumber : numberOf? task.nodes chain = some chainId)
    (journal : Journal α) {c : Classification} (hc : fate chain address = some c) :
    Text.integer chain = .ok c.chainId ∧ Address.normalize? address = some c.address := by
  obtain ⟨l, hl⟩ := exists_serves hnumber journal
  have hfate : Fate out task.catalog chain chainId address l (fate chain address) := h hnumber hl
  rw [hc] at hfate
  exact hfate.place

/-- Every chain is listed once, under the text of its number, and no chain lists an address twice, in
whatever spelling. -/
structure Distinct (listed : List (String × List String)) : Prop where
  chains : (listed.map (·.1)).Nodup
  canonical : ∀ e ∈ listed, ∃ n : Int, e.1 = toString n
  addresses : ∀ e ∈ listed, (e.2.filterMap Address.normalize?).Nodup

theorem Fates.chainId_of_mem (h : Fates out task fate) (journal : Journal α) {e : String × List String}
    {c : Classification} (hc : .contract c ∈ entryChanges task.nodes fate e) :
    Text.integer e.1 = .ok c.chainId := by
  unfold entryChanges at hc
  split at hc
  · obtain ⟨chainId, hnumber⟩ := Option.isSome_iff_exists.1 ‹_›
    obtain ⟨address, -, haddress⟩ :=
      List.mem_filterMap.1 ((List.mem_cons.1 hc).resolve_left Change.noConfusion)
    obtain ⟨c', hc', heq⟩ := Option.map_eq_some_iff.1 haddress
    obtain rfl := Change.contract.inj heq
    exact (h.place hnumber journal hc').1
  · cases hc

theorem Fates.apart_entry (h : Fates out task fate) (journal : Journal α) {e : String × List String}
    (hdistinct : (e.2.filterMap Address.normalize?).Nodup) :
    (entryChanges task.nodes fate e).Pairwise Change.Apart := by
  unfold entryChanges
  split
  · obtain ⟨chainId, hnumber⟩ := Option.isSome_iff_exists.1 ‹_›
    refine List.pairwise_cons.2 ⟨fun b _ => by cases b <;> exact trivial, ?_⟩
    refine List.pairwise_filterMap.2 ((List.pairwise_filterMap.1 hdistinct).imp ?_)
    intro address address' hne b hb b' hb'
    obtain ⟨c, hc, rfl⟩ := Option.map_eq_some_iff.1 hb
    obtain ⟨c', hc', rfl⟩ := Option.map_eq_some_iff.1 hb'
    intro hsame
    exact hne _ (h.place hnumber journal hc).2 _ (h.place hnumber journal hc').2 (Prod.mk.inj hsame).2
  · exact .nil

/-- The contracts of distinct candidates have distinct places. -/
theorem Fates.apart (h : Fates out task fate) (journal : Journal α) (hdistinct : Distinct listed) :
    (changes task.nodes fate listed).Pairwise Change.Apart := by
  refine List.pairwise_flatMap.2
    ⟨fun e he => h.apart_entry journal (hdistinct.addresses e he), ?_⟩
  refine (List.pairwise_map.1 hdistinct.chains).imp_of_mem ?_
  intro e e' he he' hne b hb b' hb'
  cases b with
  | chain _ => exact trivial
  | contract c =>
    cases b' with
    | chain _ => exact trivial
    | contract c' =>
      obtain ⟨n, hn⟩ := hdistinct.canonical e he
      obtain ⟨n', hn'⟩ := hdistinct.canonical e' he'
      have hc := Text.eq_of_integer_toString (hn ▸ h.chainId_of_mem journal hb)
      have hc' := Text.eq_of_integer_toString (hn' ▸ h.chainId_of_mem journal hb')
      intro hsame
      refine hne ?_
      rw [hn, hn', ← hc, ← hc', (Prod.mk.inj hsame).1]

variable {start begun : Resolve α} {entries more : List (Entry α)} {p p' : Point α}

omit [Seconds α] in
theorem entryChanges_of_none (hnumber : numberOf? nodes chain = none) (addresses : List String) :
    entryChanges nodes fate (chain, addresses) = [] := by
  rw [entryChanges, hnumber]
  rfl

omit [Seconds α] in
theorem entryChanges_of_some (hnumber : numberOf? nodes chain = some chainId) (addresses : List String) :
    entryChanges nodes fate (chain, addresses) = .chain chain :: addressChanges fate chain addresses := by
  rw [entryChanges, hnumber]
  rfl

omit [Seconds α] in
theorem addressChanges_cons (fate : String → String → Option Classification) (chain address : String)
    (addresses : List String) : addressChanges fate chain (address :: addresses) =
      addressChanges fate chain [address] ++ addressChanges fate chain addresses :=
  List.filterMap_append (l := [address])

theorem Kept.tally_of_candidate {v v₁ v₂ v₃ : Visit α} {codes : List Json}
    {ahead : List (String × String)}
    (h : Kept out start listed entries ((chain, address) :: ahead) v.job)
    (hnumber : numberOf? start.task.nodes chain = some chainId) (hfates : Fates out start.task fate)
    (hserves : Serves start.task chain v.line)
    (hgoing : (Visit.working (Job.shouldStop out)).go v = (.ok false, v₁))
    (hlookup : (Visit.working (Job.writing (Corpus.fetchCodes out (.str address) (.int chainId)))).go v₁ =
      (.ok codes, v₂))
    (hgo : (resolveCandidate out chain chainId (.str address)).go v₁ = (.ok (), v₃)) :
    v₃.job.task.tally = (addressChanges fate chain [address]).foldl change v.job.task.tally ∧
      Serves start.task chain v₃.line := by
  have hkept := ((keeps_working (unwritten_standing.keeps _)).of_go hlookup).trans
    ((keeps_working (shouldStop_keeps out)).of_go hgoing)
  have h₂ := h.of_standing hkept
  have htask : v₂.job.task = v.job.task := congrArg Prod.fst hkept
  have hroom := h₂.room
  rw [List.length_cons] at hroom
  obtain ⟨x, hcandidate, fate', v', hx, hfate, hjob, hsetting⟩ :=
    exists_disposes chain hlookup h₂.bounded (by omega)
  obtain rfl := (Prod.mk.inj ((hcandidate.trans hx).symm.trans hgo)).2
  -- Neither the question whether to stop nor the lookup has to do with the client.
  have hclient : v₂.client = v.client := by
    rw [(go_of_working hlookup).2, (go_of_working hgoing).2]
  obtain ⟨client, hof, hreach⟩ := hserves
  have hreach₂ : v₂.line.reach = (client.endpoints, client.rounds) :=
    (congrArg (fun c : Client α => (c.endpoints, c.rounds)) hclient).trans hreach
  obtain rfl := (hfates hnumber (l := v₂.line) ⟨client, hof, hreach₂⟩).unique (h₂.catalog ▸ hfate)
  refine ⟨?_, client, hof, ?_⟩
  · rw [hjob, ← htask]
    unfold addressChanges
    cases hc : fate chain address with
    | none => simp [hc, settled]
    | some c => simp [hc, settled, change]
  · have hkept : v'.line.reach = v₂.line.reach :=
      Prod.ext (congrArg (·.1) hsetting) (congrArg (·.2.1) hsetting)
    exact hkept.trans hreach₂

/-- The changes that are ahead are those that a step makes and those that are ahead after it. -/
theorem Kept.step_changes (h : Kept out start listed entries p.ahead p.job)
    (hnumbered : p.Numbered start.task.nodes) (hfates : Fates out start.task fate)
    (hserved : p.Served start.task) (hstep : Step out p more p') :
    (p'.changes start.task.nodes fate).foldl change p'.job.task.tally =
      (p.changes start.task.nodes fate).foldl change p.job.task.tally ∧ p'.Served start.task := by
  cases hstep with
  | @passOver chain addresses chains job job₁ job₂ hgoing hnumber hgo =>
    have hkept := (shouldStop_keeps out).of_go hgoing
    have h₁ := h.of_standing hkept
    have hroom : job₁.task.progress.processed + (addresses.map (chain, ·) ++ pairs chains).length =
        listedCount listed := h₁.room
    rw [List.length_append, List.length_map] at hroom
    obtain ⟨logs, hpassed⟩ := go_resolveChain_of_none out hnumber h₁.bounded addresses (by omega)
    obtain rfl := (Prod.mk.inj (hpassed.symm.trans hgo)).2
    refine ⟨?_, trivial⟩
    change (Resolve.changes _ fate chains).foldl change job₁.task.tally =
      (entryChanges _ fate (chain, addresses) ++ Resolve.changes _ fate chains).foldl change job.task.tally
    rw [entryChanges_of_none (h₁.nodes ▸ hnumber), List.nil_append, show job₁.task = job.task from
      congrArg Prod.fst hkept]
  | @enter chain chainId addresses chains job job₁ job₂ client hgoing hnumber hnoted hclient =>
    have hkept := (shouldStop_keeps out).of_go hgoing
    have h₁ := h.of_standing hkept
    obtain rfl := (Prod.mk.inj hnoted).2
    refine ⟨?_, client, ?_, rfl⟩
    · change (addressChanges fate chain addresses ++ Resolve.changes _ fate chains).foldl change
          (job₁.task.tally.addChain chain) =
        (entryChanges _ fate (chain, addresses) ++ Resolve.changes _ fate chains).foldl change
          job.task.tally
      rw [entryChanges_of_some (h₁.nodes ▸ hnumber),
        show job₁.task = job.task from congrArg Prod.fst hkept]
      rfl
    · change Client.ofUrl? ((Json.lookup? job₁.task.nodes chain).getD .null) job₁.task.rounds
        job₁.task.timeout job₁.task.interval = .ok client at hclient
      rw [h₁.task] at hclient
      exact hclient
  | @candidate chain address chainId addresses chains v v₁ v₂ v₃ codes hgoing hlookup hgo =>
    obtain ⟨htally, hserves⟩ := h.tally_of_candidate hnumbered hfates hserved hgoing hlookup hgo
    refine ⟨?_, hserves⟩
    change (addressChanges fate chain addresses ++ _).foldl change v₃.job.task.tally =
      (addressChanges fate chain (address :: addresses) ++ _).foldl change v.job.task.tally
    rw [htally, addressChanges_cons fate chain address addresses, List.append_assoc, ← List.foldl_append]
  | @leave chain chainId chains v v₁ job hclose hflush =>
    have hkept := ((flush_keeps out).of_go hflush).trans ((keeps_asking Line.close).of_go hclose)
    refine ⟨?_, trivial⟩
    change (Resolve.changes _ fate chains).foldl change job.task.tally = _
    rw [show job.task = v.job.task from congrArg Prod.fst hkept]
    rfl

/-- At every point what has been counted and the changes ahead make up the tally of all candidates. -/
theorem Reaches.changes (hfates : Fates out start.task fate)
    (hbegin : (begin out).go start = (.ok (), begun))
    (hbegun : Kept out start listed [] (pairs listed) begun)
    (hcandidates : begun.task.candidates = listing listed) (htally : begun.task.tally = {})
    (h : Reaches out start listed entries p) :
    (p.changes start.task.nodes fate).foldl change p.job.task.tally =
      (Resolve.changes start.task.nodes fate listed).foldl change {} ∧ p.Served start.task := by
  induction h with
  | begun hbegin' =>
    obtain rfl := (Prod.mk.inj (hbegin.symm.trans hbegin')).2
    refine ⟨?_, trivial⟩
    change (Resolve.changes _ fate listed).foldl change begun.task.tally = _
    rw [htally]
  | step hreaches hstep ih =>
    obtain ⟨hkept, hnumbered, -⟩ := hreaches.kept hbegin hbegun hcandidates
    obtain ⟨hsame, hserved⟩ := hkept.step_changes hnumbered hfates ih.2 hstep
    exact ⟨hsame.trans ih.1, hserved⟩

section New

variable {catalog : List Definition} {folder : Folder} {nodes : List (String × Json)} {rounds : Int}
  {timeout : Float} {interval : α} {journal : Journal α}

/-- The tally of a new resolution that nothing comes in the way of is told from the fates of its
candidates. -/
theorem Calm.exists_tally (hcalm : Calm out) (hstopped : journal.stopped = false)
    (hready : Snapshot.Ready journal.disk folder.path ResolutionTally.fileNames)
    (hfew : listedCount listed < 2 ^ 64)
    (hfates : Fates out (ofListed catalog folder listed nodes rounds timeout interval journal).task fate) :
    ∃ last, (run out).go (ofListed catalog folder listed nodes rounds timeout interval journal) =
        (.ok (), last) ∧ last.completed = true ∧
      last.task.tally = (Resolve.changes nodes fate listed).foldl change {} := by
  obtain ⟨entries, job, last, h, hrun, hended, hcompleted⟩ :=
    hcalm.exists_through catalog folder listed nodes rounds timeout interval hstopped hready hfew
  obtain ⟨begun, hbegin, hcandidates, hbegun⟩ :=
    kept_begin out catalog folder listed nodes rounds timeout interval journal
  have hempty : begun.task.tally = {} := by
    have hgo := @go_begin α (ofListed catalog folder listed nodes rounds timeout interval journal) _ out
      (totalListed_listing listed)
    obtain rfl := (Prod.mk.inj (hgo.symm.trans hbegin)).2
    rfl
  exact ⟨last, hrun, hcompleted,
    hended.tally.trans (h.changes hfates hbegin hbegun hcandidates hempty).1⟩

/-- The order of the candidates does not matter. When nothing comes in the way of a resolution and the nodes
are stateless, it ends with the same tally, but for the order in which it was counted, if the chains, and
the candidates of each chain, come in another order. -/
theorem order_of_candidates_immaterial (hcalm : Calm out) (hstateless : out.Stateless)
    (catalog : List Definition) (folder : Folder) (hdistinct : Distinct listed)
    (hrearranged : Rearranged listed listed') (nodes : List (String × Json)) (rounds : Int)
    (timeout : Float)
    (interval : α) (journal : Journal α) (hstopped : journal.stopped = false)
    (hready : Snapshot.Ready journal.disk folder.path ResolutionTally.fileNames)
    (hfew : listedCount listed < 2 ^ 64) :
    ∃ last last',
      (run out).go (ofListed catalog folder listed nodes rounds timeout interval journal) = (.ok (), last) ∧
      (run out).go (ofListed catalog folder listed' nodes rounds timeout interval journal) =
        (.ok (), last') ∧
      last.completed = true ∧ last'.completed = true ∧ Reordered last.task.tally last'.task.tally := by
  obtain ⟨fate, hfates⟩ := exists_fates hstateless
    (ofListed catalog folder listed nodes rounds timeout interval journal).task journal
  -- The fates do not depend on which candidates are listed.
  have hfates' : Fates out
      (ofListed catalog folder listed' nodes rounds timeout interval journal).task fate :=
    hfates
  obtain ⟨last, hrun, hcompleted, htally⟩ := hcalm.exists_tally hstopped hready hfew hfates
  obtain ⟨last', hrun', hcompleted', htally'⟩ :=
    hcalm.exists_tally hstopped hready (hrearranged.listedCount_eq ▸ hfew) hfates'
  refine ⟨last, last', hrun, hrun', hcompleted, hcompleted', ?_⟩
  rw [htally, htally']
  exact reordered_of_perm hrearranged.changes (hfates.apart journal hdistinct) {}

end New

/-- The corpus has the same code for every contract, in which there are two patterns, and no node
answers. -/
def sameCodes : Outside Rat :=
  { oneOfFive with codes := fun _ _ => [.str "0x635c60da1b6359659e90f4"] }

def startOnTwoChains (listed : List (String × List String)) : Resolve Rat :=
  ofListed Catalog.builtIn ⟨["out"], "out"⟩ listed [("1", .str "http://rpc"), ("10", .str "http://rpc")]
    1 30 0
    { clock := 0 }

theorem order_of_candidates_immaterial_on_two_chains :
    let a := "0x1111111111111111111111111111111111111111"
    let b := "0x2222222222222222222222222222222222222222"
    ∃ last last',
      (run sameCodes).go (startOnTwoChains [("1", [a, b]), ("10", [a])]) = (.ok (), last) ∧
      (run sameCodes).go (startOnTwoChains [("10", [a]), ("1", [b, a])]) = (.ok (), last') ∧
      last.task.tally.processed = 3 ∧ Reordered last.task.tally last'.task.tally := by
  intro a b
  have hprocessed :
      ((run sameCodes).go (startOnTwoChains [("1", [a, b]), ("10", [a])])).2.task.tally.processed = 3 := by
    decide +kernel
  have hdistinct : Distinct [("1", [a, b]), ("10", [a])] := by
    refine ⟨by decide, fun e he => ?_, fun e he => ?_⟩
    · rcases List.mem_cons.1 he with rfl | he
      · exact ⟨1, rfl⟩
      · rw [List.mem_singleton.1 he]
        exact ⟨10, rfl⟩
    · rcases List.mem_cons.1 he with rfl | he
      · decide +kernel
      · rw [List.mem_singleton.1 he]
        decide +kernel
  have hrearranged : Rearranged [("1", [a, b]), ("10", [a])] [("10", [a]), ("1", [b, a])] :=
    ⟨[("1", [b, a]), ("10", [a])], .cons ⟨rfl, .swap b a []⟩ (.cons ⟨rfl, .refl _⟩ .nil),
      .swap _ _ []⟩
  have hcalm : Calm sameCodes := ⟨fun _ => rfl, fun _ => rfl, fun _ => rfl⟩
  obtain ⟨last, last', hrun, hrun', -, -, h⟩ :=
    order_of_candidates_immaterial hcalm ⟨fun _ _ _ _ _ _ => rfl⟩ Catalog.builtIn ⟨["out"], "out"⟩
      hdistinct hrearranged [("1", .str "http://rpc"), ("10", .str "http://rpc")] 1 30 0 { clock := 0 } rfl
      (Snapshot.ready_empty (by decide) (by decide)) (by decide)
  change (run sameCodes).go (startOnTwoChains _) = (.ok (), last) at hrun
  rw [hrun] at hprocessed
  exact ⟨last, last', hrun, hrun', hprocessed, h⟩

end ProxyCensus.Resolve
