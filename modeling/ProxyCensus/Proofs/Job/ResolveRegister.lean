import ProxyCensus.Proofs.Job.Accounts
import ProxyCensus.Proofs.Job.Stored

/-!
# The register of a resolution

What has become of the candidates of a resolution, whatever is listed as their addresses. Main statement:
when a resolution returns and was not interrupted, its register is that of all listed candidates, in their
order: each is counted or skipped, whatever came in its way and whatever the nodes replied.
-/

namespace ProxyCensus.Resolve

variable {α : Type}

def listedPairs (candidates : List (String × Json)) : List (String × Json) :=
  candidates.flatMap fun e => ((listed? e.2).getD []).map (e.1, ·)

theorem listedPairs_cons (chain : String) (v : Json) (chains : List (String × Json)) :
    listedPairs ((chain, v) :: chains) =
      ((listed? v).getD []).map (chain, ·) ++ listedPairs chains := by
  simp [listedPairs]

variable [Seconds α]

/-- The register of a resolution: the candidates that it has dealt with, what it has counted then, and how
many of them it has processed and skipped. A chain that is entered is noted. A candidate is counted if its
chain has a node and a number, it is found, and its analysis returns; it is skipped if its chain has none,
or it is not found, or its analysis fails, and then the tally stays as it was. -/
inductive Register (out : Outside α) (catalog : List Definition) (nodes : List (String × Json)) :
    List (String × Json) → ResolutionTally → Int → Int → Prop where
  | empty : Register out catalog nodes [] {} 0 0
  | chain {dealt : List (String × Json)} {t : ResolutionTally} {processed skipped : Int}
    (h : Register out catalog nodes dealt t processed skipped) (name : String) :
    Register out catalog nodes dealt (t.addChain name) processed skipped
  | passedOver {dealt : List (String × Json)} {t : ResolutionTally} {processed skipped : Int}
    (h : Register out catalog nodes dealt t processed skipped) {chain : String}
    (hnumber : numberOf? nodes chain = none) (address : Json) :
    Register out catalog nodes (dealt ++ [(chain, address)]) t (processed + 1) (skipped + 1)
  | skipped {dealt : List (String × Json)} {t : ResolutionTally} {processed skipped : Int}
    (h : Register out catalog nodes dealt t processed skipped) {chain : String} {chainId : Int}
    (hnumber : numberOf? nodes chain = some chainId) {address : String} {line : Line α}
    (hfate : Fate out catalog chain chainId address line none) :
    Register out catalog nodes (dealt ++ [(chain, .str address)]) t (processed + 1) (skipped + 1)
  | counted {dealt : List (String × Json)} {t : ResolutionTally} {processed skipped : Int}
    (h : Register out catalog nodes dealt t processed skipped) {chain : String} {chainId : Int}
    (hnumber : numberOf? nodes chain = some chainId) {address : String} {line : Line α}
    {c : Classification} (hfate : Fate out catalog chain chainId address line (some c)) :
    Register out catalog nodes (dealt ++ [(chain, .str address)]) (t.record c) (processed + 1) skipped

variable {out : Outside α} {catalog : List Definition} {nodes : List (String × Json)}
  {dealt ahead : List (String × Json)} {t : ResolutionTally} {processed skipped : Int}
  {start job job' : Resolve α} {chain : String} {chainId : Int}

theorem Register.processed_eq (h : Register out catalog nodes dealt t processed skipped) :
    processed = dealt.length := by
  induction h with
  | empty => rfl
  | chain _ _ ih => exact ih
  | passedOver _ _ _ ih => simp [ih]
  | skipped _ _ _ ih => simp [ih]
  | counted _ _ _ ih => simp [ih]

theorem Register.balance (h : Register out catalog nodes dealt t processed skipped) :
    processed - skipped = t.processed := by
  induction h with
  | empty => rfl
  | chain _ name ih => rw [ResolutionTally.processed_addChain, ih]
  | passedOver _ _ _ ih | skipped _ _ _ ih => omega
  | counted _ _ _ ih =>
    rw [ResolutionTally.processed_record]
    omega

theorem Register.passOver (h : Register out catalog nodes dealt t processed skipped)
    (hnumber : numberOf? nodes chain = none) (addresses : List Json) :
    Register out catalog nodes (dealt ++ addresses.map (chain, ·)) t (processed + addresses.length)
      (skipped + addresses.length) :=
  passOver_of_step (P := (Register out catalog nodes · t)) (fun h => h.passedOver hnumber) addresses h

/-- The register of a resolution is kept, and there is room in its progress for the candidates ahead. -/
structure Registered (out : Outside α) (start : Resolve α) (dealt ahead : List (String × Json))
    (job : Resolve α) : Prop where
  task : job.task = { start.task with tally := job.task.tally, progress := job.task.progress }
  register : Register out start.task.catalog start.task.nodes dealt job.task.tally
    job.task.progress.processed job.task.progress.skipped
  bounded : job.task.progress.Bounded (dealt ++ ahead).length

theorem Registered.of_task (h : Registered out start dealt ahead job) (htask : job'.task = job.task) :
    Registered out start dealt ahead job' := by
  obtain ⟨htask₁, hregister, hbounded⟩ := h
  refine ⟨?_, ?_, ?_⟩ <;> rw [htask] <;> assumption

theorem Registered.room (h : Registered out start dealt ahead job) :
    job.task.progress.processed + ahead.length = (dealt ++ ahead).length := by
  rw [h.register.processed_eq, List.length_append]
  omega

theorem Registered.addChain (h : Registered out start dealt ahead job) (name : String) :
    Registered out start dealt ahead
      { job with task := { job.task with tally := job.task.tally.addChain name } } := by
  refine { h with task := ?_, register := h.register.chain name }
  rw [h.task]

theorem Registered.nodes_eq (h : Registered out start dealt ahead job) :
    job.task.nodes = start.task.nodes := by
  rw [h.task]

/-- What is listed under a chain that has no node or no number is skipped. -/
theorem Registered.passOver {addresses : List Json}
    (h : Registered out start dealt (addresses.map (chain, ·) ++ ahead) job)
    (hnumber : numberOf? start.task.nodes chain = none) {stop : Bool}
    (hgo : (resolveChain out chain addresses).go job = (.ok stop, job')) :
    stop = false ∧ Registered out start (dealt ++ addresses.map (chain, ·)) ahead job' := by
  have hroom := h.room
  rw [List.length_append, List.length_map] at hroom
  obtain ⟨logs, hpassed⟩ :=
    go_resolveChain_of_unnumbered out (h.nodes_eq.symm ▸ hnumber) h.bounded addresses (by omega)
  obtain ⟨hstop, rfl⟩ := Prod.mk.inj (hpassed.symm.trans hgo)
  refine ⟨(Except.ok.inj hstop).symm, ?_, h.register.passOver hnumber addresses, ?_⟩
  · rw [h.task]
  · rw [List.append_assoc]
    exact h.bounded.add (by omega) true

theorem Registered.settle {address : String}
    (h : Registered out start dealt ((chain, .str address) :: ahead) job)
    (hnumber : numberOf? start.task.nodes chain = some chainId) {line : Line α}
    {fate : Option Classification} (hfate : Fate out start.task.catalog chain chainId address line fate)
    (htask : job'.task = settled job.task fate) :
    Registered out start (dealt ++ [(chain, .str address)]) ahead job' := by
  have hroom : job.task.progress.processed + (1 : Nat) ≤
      (dealt ++ (chain, .str address) :: ahead).length := by
    rw [← h.room, List.length_cons]
    omega
  have hbounded : ∀ skipped, (job.task.progress.add 1 skipped).Bounded
      ((dealt ++ [(chain, Json.str address)]) ++ ahead).length := by
    rw [List.append_assoc]
    exact h.bounded.add hroom
  cases fate with
  | none =>
    refine ⟨?_, ?_, ?_⟩
    · rw [htask, h.task]
      rfl
    · rw [htask]
      exact h.register.skipped hnumber hfate
    · rw [htask]
      exact hbounded true
  | some c =>
    refine ⟨?_, ?_, ?_⟩
    · rw [htask, h.task]
      rfl
    · rw [htask]
      exact h.register.counted hnumber hfate
    · rw [htask]
      exact hbounded false

variable {v v' : Visit α}

theorem Registered.resolveCandidate {address : Json}
    (h : Registered out start dealt ((chain, address) :: ahead) v.job)
    (hnumber : numberOf? start.task.nodes chain = some chainId)
    (hgo : (resolveCandidate out chain chainId address).go v = (.ok (), v')) :
    Registered out start (dealt ++ [(chain, address)]) ahead v'.job := by
  obtain ⟨codes, v₁, hlookup, -⟩ := Act.go_bind_eq_ok hgo
  cases address with
  | str address =>
    have hkept := (keeps_working (unwritten_standing.keeps _)).of_go hlookup
    have h₁ := h.of_task (congrArg Prod.fst hkept)
    have hroom := h₁.room
    rw [List.length_cons] at hroom
    obtain ⟨x, hcandidate, fate, v₂, hx, hfate, hjob, -⟩ :=
      exists_disposes chain hlookup h₁.bounded (by omega)
    obtain rfl := (Prod.mk.inj ((hcandidate.trans hx).symm.trans hgo)).2
    have hcatalog : v₁.job.task.catalog = start.task.catalog := by rw [h₁.task]
    exact h₁.settle hnumber (hcatalog ▸ hfate) (by rw [hjob])
  | _ => cases hlookup

theorem Registered.resolveAddresses (hnumber : numberOf? start.task.nodes chain = some chainId)
    {addresses : List Json} : ∀ {dealt : List (String × Json)} {v : Visit α},
    Registered out start dealt (addresses.map (chain, ·) ++ ahead) v.job →
      (resolveAddresses out chain chainId addresses).go v = (.ok false, v') →
      Registered out start (dealt ++ addresses.map (chain, ·)) ahead v'.job := by
  induction addresses with
  | nil =>
    intro dealt v h hgo
    obtain rfl := (Prod.mk.inj hgo).2
    simpa using h
  | cons address rest ih =>
    intro dealt v h hgo
    obtain ⟨stop, v₁, hstop, hgo⟩ := Act.go_bind_eq_ok hgo
    cases stop with
    | true => cases hgo
    | false =>
      obtain ⟨_, v₂, hcandidate, hgo⟩ := Act.go_bind_eq_ok hgo
      have hkept := (keeps_working (shouldStop_keeps out)).of_go hstop
      have h₂ := (h.of_task (congrArg Prod.fst hkept)).resolveCandidate hnumber hcandidate
      have hrest := ih h₂ hgo
      rwa [List.append_assoc] at hrest

theorem interrupted_of_resolveAddresses {addresses : List Json} : ∀ {v : Visit α},
    (Resolve.resolveAddresses out chain chainId addresses).go v = (.ok true, v') →
      v'.job.interrupted = true := by
  induction addresses with
  | nil =>
    intro v hgo
    cases hgo
  | cons address rest ih =>
    intro v hgo
    obtain ⟨stop, v₁, hstop, hgo⟩ := Act.go_bind_eq_ok hgo
    cases stop with
    | true =>
      obtain rfl := (Prod.mk.inj hgo).2
      obtain ⟨stop, job, hasked, hmarked⟩ := Job.exists_shouldStop out v.job
      unfold Visit.working at hstop
      rw [Act.go_on, hasked] at hstop
      obtain ⟨hstopped, rfl⟩ := Prod.mk.inj hstop
      exact hmarked (Except.ok.inj hstopped)
    | false =>
      obtain ⟨_, v₂, -, hgo⟩ := Act.go_bind_eq_ok hgo
      exact ih hgo

theorem Registered.resolveChain {addresses : List Json}
    (h : Registered out start dealt (addresses.map (chain, ·) ++ ahead) job) {stop : Bool}
    (hgo : (Resolve.resolveChain out chain addresses).go job = (.ok stop, job')) :
    if stop then job'.interrupted = true
    else Registered out start (dealt ++ addresses.map (chain, ·)) ahead job' := by
  cases hnumber : numberOf? start.task.nodes chain with
  | none =>
    obtain ⟨rfl, hpassed⟩ := h.passOver hnumber hgo
    exact hpassed
  | some chainId =>
    have hnumber₁ := h.nodes_eq.symm ▸ hnumber
    obtain ⟨job₁, hnoted, htask⟩ : ∃ job₁, Act.go (do
        log .info s!"Processing chain id {chain}"
        Job.adjust fun task => { task with tally := task.tally.addChain chain }) job =
          (.ok (), job₁) ∧
        job₁.task = { job.task with tally := job.task.tally.addChain chain } := ⟨_, rfl, rfl⟩
    have hset := isSet_of_numberOf? hnumber
    rw [← h.nodes_eq, ← congrArg ResolveTask.nodes htask] at hset
    obtain ⟨client, hclient⟩ := Client.exists_ofUrl? hset job₁.task.rounds job₁.task.timeout
      job₁.task.interval
    rcases hvisit : ((Resolve.resolveAddresses out chain chainId addresses).andFinally
      (Visit.asking Line.close)).go ⟨client, job₁⟩ with ⟨left, v₁⟩
    rw [go_resolveChain_of_some hnumber₁ hnoted hclient addresses hvisit] at hgo
    obtain ⟨told, job₂, hleft, hgo⟩ := Act.go_bind_eq_ok hgo
    obtain ⟨rfl, rfl⟩ := Prod.mk.inj hleft
    obtain ⟨v, hresolve, hclose⟩ := Act.go_andFinally_eq_ok hvisit
    obtain ⟨l, hclosed, -⟩ := go_close v
    obtain rfl := (Prod.mk.inj (hclosed.symm.trans hclose)).2
    cases told with
    | true =>
      obtain ⟨hstop, rfl⟩ := Prod.mk.inj hgo
      obtain rfl := Except.ok.inj hstop
      have hinterrupted := interrupted_of_resolveAddresses hresolve
      exact hinterrupted
    | false =>
      obtain ⟨_, job₃, hflush, hgo⟩ := Act.go_bind_eq_ok hgo
      obtain ⟨hstop, rfl⟩ := Prod.mk.inj hgo
      obtain rfl := Except.ok.inj hstop
      have hentered : Registered out start dealt (addresses.map (chain, ·) ++ ahead) job₁ :=
        (h.addChain chain).of_task htask
      have hdealt := hentered.resolveAddresses hnumber hresolve
      exact hdealt.of_task (congrArg Prod.fst ((flush_keeps out).of_go hflush))

/-- Work that returns without having been told to stop has dealt with all that is listed. -/
theorem Registered.resolveChains (hgoing : job'.interrupted = false) (chains : List (String × Json)) :
    ∀ {dealt : List (String × Json)} {job : Resolve α},
      Registered out start dealt (listedPairs chains) job →
      (Resolve.resolveChains out chains).go job = (.ok (), job') →
      Registered out start (dealt ++ listedPairs chains) [] job' := by
  induction chains with
  | nil =>
    intro dealt job h hgo
    obtain rfl := (Prod.mk.inj hgo).2
    simpa [listedPairs] using h
  | cons entry rest ih =>
    intro dealt job h hgo
    obtain ⟨chain, v⟩ := entry
    obtain ⟨stop, job₁, hstop, hgo⟩ := Act.go_bind_eq_ok hgo
    cases stop with
    | true =>
      obtain rfl := (Prod.mk.inj hgo).2
      rw [Job.interrupted_of_shouldStop hstop] at hgoing
      cases hgoing
    | false =>
      obtain ⟨told, job₂, hchain, hgo⟩ := Act.go_bind_eq_ok hgo
      have h₁ := h.of_task (congrArg Prod.fst ((shouldStop_keeps out).of_go hstop))
      rw [listedPairs_cons] at h₁ ⊢
      have h₂ := h₁.resolveChain hchain
      cases told with
      | true =>
        obtain rfl := (Prod.mk.inj hgo).2
        rw [h₂] at hgoing
        cases hgoing
      | false =>
        rw [← List.append_assoc]
        exact ih h₂ hgo

/-- The register of a resolution that has dealt with some candidates. -/
def Settled (out : Outside α) (dealt : List (String × Json)) (job : Resolve α) : Prop :=
  Register out job.task.catalog job.task.nodes dealt job.task.tally job.task.progress.processed
    job.task.progress.skipped

end ProxyCensus.Resolve
