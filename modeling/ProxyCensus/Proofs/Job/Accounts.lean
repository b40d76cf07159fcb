import ProxyCensus.Proofs.Job.ResolveCourse
import ProxyCensus.Proofs.Tally.Balance

/-!
# The accounts of a resolution

What a resolution has counted wherever it stands between two candidates, whatever comes in its way and
whatever the nodes reply. Main statement: its tally and its progress are the balance of what became of the
candidates before; and when it is complete, that is all of them.
-/

namespace ProxyCensus.Resolve

open Act (Keeps)
open ResolutionTally (Recorded)

variable {α : Type}

def account (job : Resolve α) : ResolutionTally × (Int × Int) × Bool :=
  (job.task.tally, (job.task.progress.processed, job.task.progress.skipped), job.completed)

theorem finish_keeps_of {γ : Type} {part : Resolve α → γ} {out : Outside α}
    (hunwritten : Job.Unwritten part) (hcount : Keeps part (tracking (Tracked.finish out))) :
    Keeps part (finish out) :=
  keeps_finish hcount (.bind .state fun _ => hunwritten.keeps _) fun _ _ => hunwritten.keeps _

theorem finish_keeps (out : Outside α) : Keeps account (finish out) :=
  finish_keeps_of (fun _ _ => rfl) (.on (Tracked.finish_keeps out) fun job _ h =>
    congrArg (fun counters => (job.task.tally, counters, job.completed)) h)

variable [Seconds α]

/-- The books of a resolution: what it has counted, and how many candidates it has processed and skipped.
A chain that is entered is noted. A candidate is counted if its chain has a node and a number, it is
found, and its analysis returns; it is skipped if its chain has none, or it is not found, or its analysis
fails, and then the tally stays as it was. -/
inductive Books (out : Outside α) (task : ResolveTask α) :
    List (Entry α) → ResolutionTally → Int → Int → Prop where
  | empty : Books out task [] {} 0 0
  | chain {entries : List (Entry α)} {t : ResolutionTally} {processed skipped : Int}
    (h : Books out task entries t processed skipped) (name : String) :
    Books out task (entries ++ [.chain name]) (t.addChain name) processed skipped
  | passedOver {entries : List (Entry α)} {t : ResolutionTally} {processed skipped : Int}
    (h : Books out task entries t processed skipped) {chain : String}
    (hnumber : numberOf? task.nodes chain = none) (address : String) :
    Books out task (entries ++ [.candidate chain address none]) t (processed + 1) (skipped + 1)
  | skipped {entries : List (Entry α)} {t : ResolutionTally} {processed skipped : Int}
    (h : Books out task entries t processed skipped) {chain : String} {chainId : Int}
    (hnumber : numberOf? task.nodes chain = some chainId) {address : String} {line : Line α}
    (hfate : Fate out task.catalog chain chainId address line none) :
    Books out task (entries ++ [.candidate chain address (some line)]) t (processed + 1) (skipped + 1)
  | counted {entries : List (Entry α)} {t : ResolutionTally} {processed skipped : Int}
    (h : Books out task entries t processed skipped) {chain : String} {chainId : Int}
    (hnumber : numberOf? task.nodes chain = some chainId) {address : String} {line : Line α}
    {c : Classification} (hfate : Fate out task.catalog chain chainId address line (some c)) :
    Books out task (entries ++ [.candidate chain address (some line)]) (t.record c) (processed + 1) skipped

variable {out : Outside α} {start : Resolve α} {task : ResolveTask α}
  {listed : List (String × List String)} {entries more : List (Entry α)} {p p' : Point α}
  {t : ResolutionTally} {processed skipped : Int}

/-- The books are balanced: what was processed and not skipped is what was counted. -/
theorem Books.balance (h : Books out task entries t processed skipped) :
    processed - skipped = t.processed := by
  -- The tally counts the classifications, however many candidates were skipped between them.
  have hrecorded : ∃ cs, Recorded cs t ∧ processed - skipped = cs.length := by
    induction h with
    | empty => exact ⟨[], .empty, rfl⟩
    | chain _ name ih =>
      obtain ⟨cs, hcs, hlength⟩ := ih
      exact ⟨cs, .chain name hcs, hlength⟩
    | passedOver _ _ _ ih =>
      obtain ⟨cs, hcs, hlength⟩ := ih
      exact ⟨cs, hcs, by omega⟩
    | skipped _ _ _ ih =>
      obtain ⟨cs, hcs, hlength⟩ := ih
      exact ⟨cs, hcs, by omega⟩
    | @counted _ _ _ _ _ _ _ _ _ _ c _ ih =>
      obtain ⟨cs, hcs, hlength⟩ := ih
      refine ⟨cs ++ [c], .contract c hcs, ?_⟩
      rw [List.length_append, List.length_singleton]
      omega
  obtain ⟨cs, hcs, hlength⟩ := hrecorded
  rw [hlength, hcs.processed_eq]

/-- Every candidate that is dealt with is processed. -/
theorem Books.processed_eq (h : Books out task entries t processed skipped) :
    processed = (entries.filterMap Entry.pair?).length := by
  induction h with
  | empty => rfl
  | chain _ _ ih => simpa [List.filterMap_cons, Entry.pair?] using ih
  | passedOver _ _ _ ih => simp [Entry.pair?, ih]
  | skipped _ _ _ ih => simp [Entry.pair?, ih]
  | counted _ _ _ ih => simp [Entry.pair?, ih]

omit [Seconds α] in
/-- What goes on for one address that is passed over goes on for all addresses of a chain. -/
theorem passOver_of_step {β ε : Type} {entry : β → ε} {P : List ε → Int → Int → Prop}
    (hstep : ∀ {entries processed skipped}, P entries processed skipped →
      ∀ address, P (entries ++ [entry address]) (processed + 1) (skipped + 1))
    (addresses : List β) : ∀ {entries processed skipped}, P entries processed skipped →
      P (entries ++ addresses.map entry) (processed + addresses.length) (skipped + addresses.length) := by
  induction addresses with
  | nil =>
    intro entries processed skipped h
    simpa using h
  | cons address rest ih =>
    intro entries processed skipped h
    have hrest := ih (hstep h address)
    rw [List.append_assoc] at hrest
    have hone (n : Int) : n + ((address :: rest).length : Nat) = n + 1 + rest.length := by
      rw [List.length_cons]
      omega
    rw [hone, hone]
    exact hrest

theorem Books.passOver (h : Books out task entries t processed skipped) {chain : String}
    (hnumber : numberOf? task.nodes chain = none) (addresses : List String) :
    Books out task (entries ++ addresses.map fun address => .candidate chain address none) t
      (processed + addresses.length) (skipped + addresses.length) :=
  passOver_of_step (P := (Books out task · t)) (fun h => h.passedOver hnumber) addresses h

/-- When some candidates are ahead of a resolution, its books are kept, and every candidate that is listed
has either been dealt with or is ahead. -/
structure Kept (out : Outside α) (start : Resolve α) (listed : List (String × List String))
    (entries : List (Entry α)) (ahead : List (String × String)) (job : Resolve α) : Prop where
  task : job.task = { start.task with tally := job.task.tally, progress := job.task.progress }
  books : Books out start.task entries job.task.tally job.task.progress.processed
    job.task.progress.skipped
  bounded : job.task.progress.Bounded (listedCount listed)
  listings : entries.filterMap Entry.pair? ++ ahead = pairs listed
  completed : job.completed = false

variable {ahead : List (String × String)} {job job₁ job₂ : Resolve α} {chain address : String}
  {chainId : Int}

theorem Kept.room (h : Kept out start listed entries ahead job) :
    job.task.progress.processed + ahead.length = listedCount listed := by
  have hlength := congrArg List.length h.listings
  rw [List.length_append, length_pairs] at hlength
  rw [h.books.processed_eq]
  omega

theorem Kept.hasRoom (h : Kept out start listed entries p.ahead p.job) :
    p.HasRoom (listedCount listed) :=
  ⟨h.bounded, Int.le_of_eq h.room⟩

theorem Kept.of_standing (h : Kept out start listed entries ahead job)
    (hstanding : standing job₁ = standing job) : Kept out start listed entries ahead job₁ := by
  obtain ⟨htask, hcompleted⟩ := Prod.mk.inj hstanding
  refine ⟨?_, ?_, ?_, h.listings, hcompleted.trans h.completed⟩
  · rw [htask]
    exact h.task
  · rw [htask]
    exact h.books
  · rw [htask]
    exact h.bounded

theorem Kept.catalog (h : Kept out start listed entries ahead job) :
    job.task.catalog = start.task.catalog := by
  rw [h.task]

theorem Kept.nodes (h : Kept out start listed entries ahead job) :
    job.task.nodes = start.task.nodes := by
  rw [h.task]

theorem Kept.addChain (h : Kept out start listed entries ahead job) (name : String) :
    Kept out start listed (entries ++ [.chain name]) ahead
      { job with task := { job.task with tally := job.task.tally.addChain name } } := by
  refine { h with task := ?_, books := h.books.chain name, listings := ?_ }
  · rw [h.task]
  · simpa [List.filterMap_cons, Entry.pair?] using h.listings

theorem Kept.passOver {addresses : List String}
    (h : Kept out start listed entries (addresses.map (chain, ·) ++ ahead) job)
    (hnumber : numberOf? start.task.nodes chain = none) (journal : Journal α) :
    Kept out start listed (entries ++ addresses.map fun address => .candidate chain address none) ahead
      { job with
        task := { job.task with progress := job.task.progress.add addresses.length true }
        journal := journal } := by
  have hroom := h.room
  rw [List.length_append, List.length_map] at hroom
  refine { h with
    task := ?_, books := h.books.passOver hnumber addresses, bounded := ?_, listings := ?_ }
  · rw [h.task]
  · exact h.bounded.add (by omega) true
  · rw [← h.listings]
    simp [List.filterMap_map, Function.comp_def, Entry.pair?]

theorem Kept.settle (h : Kept out start listed entries ((chain, address) :: ahead) job)
    (hnumber : numberOf? start.task.nodes chain = some chainId) {line : Line α}
    {fate : Option Classification} (hfate : Fate out start.task.catalog chain chainId address line fate)
    (hstanding : standing job₁ = (settled job.task fate, job.completed)) :
    Kept out start listed (entries ++ [.candidate chain address (some line)]) ahead job₁ := by
  obtain ⟨htask, hcompleted⟩ := Prod.mk.inj hstanding
  have hroom := h.room
  rw [List.length_cons] at hroom
  have hone : job.task.progress.processed + (1 : Nat) ≤ listedCount listed := by omega
  refine ⟨?_, ?_, ?_, ?_, hcompleted.trans h.completed⟩
  · rw [htask, h.task]
    cases fate <;> rfl
  · rw [htask]
    cases fate with
    | some c => exact h.books.counted hnumber hfate
    | none => exact h.books.skipped hnumber hfate
  · rw [htask]
    cases fate with
    | some c => exact h.bounded.add hone false
    | none => exact h.bounded.add hone true
  · rw [← h.listings]
    simp [Entry.pair?]

def Point.Numbered (nodes : List (String × Json)) : Point α → Prop
  | between _ _ => True
  | within chain chainId _ _ _ => numberOf? nodes chain = some chainId

/-- A step keeps the books and deals with the candidates that it takes. -/
theorem Kept.step (h : Kept out start listed entries p.ahead p.job)
    (hnumbered : p.Numbered start.task.nodes) (hstep : Step out p more p') :
    Kept out start listed (entries ++ more) p'.ahead p'.job ∧ p'.Numbered start.task.nodes := by
  cases hstep with
  | @passOver chain addresses chains job job₁ job₂ hgoing hnumber hgo =>
    have h₁ : Kept out start listed entries (addresses.map (chain, ·) ++ pairs chains) job₁ :=
      h.of_standing ((shouldStop_keeps out).of_go hgoing)
    have hroom := h₁.room
    rw [List.length_append, List.length_map] at hroom
    obtain ⟨logs, hpassed⟩ :=
      go_resolveChain_of_none out hnumber h₁.bounded addresses (by omega)
    obtain rfl := (Prod.mk.inj (hpassed.symm.trans hgo)).2
    exact ⟨h₁.passOver (h₁.nodes ▸ hnumber) _, trivial⟩
  | @enter chain chainId addresses chains job job₁ job₂ client hgoing hnumber hnoted hclient =>
    have h₁ : Kept out start listed entries (addresses.map (chain, ·) ++ pairs chains) job₁ :=
      h.of_standing ((shouldStop_keeps out).of_go hgoing)
    obtain rfl := (Prod.mk.inj hnoted).2
    exact ⟨(h₁.addChain chain).of_standing rfl, h₁.nodes ▸ hnumber⟩
  | @candidate chain address chainId addresses chains v v₁ v₂ v₃ codes hgoing hlookup hgo =>
    have h₁ : Kept out start listed entries
      ((chain, address) :: (addresses.map (chain, ·) ++ pairs chains))
        v₂.job := by
      have hkept₁ := (keeps_working (shouldStop_keeps out)).of_go hgoing
      have hkept₂ := (keeps_working (unwritten_standing.keeps _)).of_go hlookup
      exact h.of_standing (hkept₂.trans hkept₁)
    have hroom := h₁.room
    rw [List.length_cons] at hroom
    obtain ⟨x, hcandidate, fate, v', hx, hfate, hjob, -⟩ :=
      exists_disposes chain hlookup h₁.bounded (by omega)
    obtain rfl := (Prod.mk.inj ((hcandidate.trans hx).symm.trans hgo)).2
    -- The fate is told from the client and the journal after the lookup, as in the entry.
    refine ⟨h₁.settle hnumbered (h₁.catalog ▸ hfate) ?_, hnumbered⟩
    change standing v'.job = _
    rw [hjob]
    rfl
  | @leave chain chainId chains v v₁ job hclose hflush =>
    have hkept₁ := (keeps_asking Line.close).of_go hclose
    have hkept₂ := (flush_keeps out).of_go hflush
    rw [List.append_nil]
    exact ⟨h.of_standing (hkept₂.trans hkept₁), trivial⟩

/-- At every point the books are kept, and the work that has begun goes on from there. -/
theorem Reaches.kept {begun : Resolve α} (hbegin : (begin out).go start = (.ok (), begun))
    (hbegun : Kept out start listed [] (pairs listed) begun)
    (hcandidates : begun.task.candidates = listing listed)
    (h : Reaches out start listed entries p) :
    Kept out start listed entries p.ahead p.job ∧ p.Numbered start.task.nodes ∧
      (work out).go begun = p.resume out := by
  induction h with
  | @begun job h =>
    obtain rfl := (Prod.mk.inj (hbegin.symm.trans h)).2
    refine ⟨hbegun, trivial, ?_⟩
    unfold work
    rw [Act.go_bind, Act.go_state]
    dsimp only
    rw [hcandidates]
    rfl
  | step _ hstep ih =>
    obtain ⟨hkept, hnumbered, hresume⟩ := ih
    obtain ⟨hkept', hnumbered'⟩ := hkept.step hnumbered hstep
    exact ⟨hkept', hnumbered', hresume.trans hstep.resume_eq⟩

/-- A resolution comes to a point at which its work comes to its end. -/
theorem Reaches.exists_rests (h : Reaches out start listed entries p)
    (hkept : Kept out start listed entries p.ahead p.job) (hnumbered : p.Numbered start.task.nodes) :
    ∃ entries p, Reaches out start listed entries p ∧ p.Rests out := by
  obtain ⟨entries, p, hreaches, -, hrests⟩ := h.exists_of_advances
    (P := fun entries p => Kept out start listed entries p.ahead p.job ∧ p.Numbered start.task.nodes)
    (fun ⟨hkept, hnumbered⟩ => hkept.hasRoom.advances.imp_right fun ⟨more, p', hstep, hless⟩ =>
      ⟨more, p', hstep, hkept.step hnumbered hstep, hless⟩) ⟨hkept, hnumbered⟩
  exact ⟨entries, p, hreaches, hrests⟩

def ofListed (catalog : List Definition) (folder : Folder) (listed : List (String × List String))
    (nodes : List (String × Json)) (rounds : Int) (timeout : Float) (interval : α)
    (journal : Journal α) : Resolve α where
  task := { catalog, folder, candidates := listing listed, nodes, rounds, timeout, interval }
  journal := journal

theorem kept_begin (out : Outside α) (catalog : List Definition) (folder : Folder)
    (listed : List (String × List String)) (nodes : List (String × Json)) (rounds : Int)
    (timeout : Float) (interval : α) (journal : Journal α) :
    ∃ begun,
      (begin out).go (ofListed catalog folder listed nodes rounds timeout interval journal) =
        (.ok (), begun) ∧
      begun.task.candidates = listing listed ∧
      Kept out (ofListed catalog folder listed nodes rounds timeout interval journal) listed []
        (pairs listed) begun := by
  have hgo := @go_begin α (ofListed catalog folder listed nodes rounds timeout interval journal) _ out
    (totalListed_listing listed)
  refine ⟨_, hgo.trans rfl, rfl, rfl, .empty, ⟨rfl, rfl, Int.le_refl 0, ?_⟩, rfl, rfl⟩
  exact Int.natCast_nonneg (listedCount listed)

/-- How a run ends after its work: it has counted what it had counted then, and it is complete if the work
has returned and it was not told to stop. -/
theorem account_run {begun worked last : Resolve α} {r result : Except Failure Unit}
    (hbegin : (begin out).go start = (.ok (), begun)) (hwork : (work out).go begun = (r, worked))
    (hrun : (run out).go start = (result, last)) :
    ∃ completed, account last = account { worked with completed := completed } ∧
      (completed = true → worked.completed = false → r = .ok () ∧ worked.interrupted = false) := by
  obtain ⟨noticed, completed, hsettled, hnoticed, hcompleted⟩ :
      ∃ noticed completed, Act.go (do begin out; work out; Job.settle) start = (r, noticed) ∧
        noticed = { worked with completed := completed } ∧
        (completed = true → worked.completed = false → r = .ok () ∧ worked.interrupted = false) := by
    rw [Act.go_bind, hbegin]
    change ∃ noticed completed, Act.go (work out >>= fun _ => Job.settle) begun = _ ∧ _
    rw [Act.go_bind, hwork]
    cases r with
    | ok _ => exact ⟨_, !worked.interrupted, rfl, rfl, fun h _ => ⟨rfl, by simpa using h⟩⟩
    | error f =>
      exact ⟨worked, worked.completed, rfl, rfl, fun h h' => by rw [h] at h'; cases h'⟩
  refine ⟨completed, ?_, hcompleted⟩
  have hlast : last = ((finish out).go noticed).2 :=
    (congrArg Prod.snd hrun).symm.trans (Act.andFinally_cases (finish out) hsettled).1
  rw [← hnoticed, ← finish_keeps out noticed, hlast]

structure Accounted (out : Outside α) (start : Resolve α) (listed : List (String × List String))
    (entries : List (Entry α)) (ahead : List (String × String)) (job : Resolve α) : Prop where
  books : Books out start.task entries job.task.tally job.task.progress.processed
    job.task.progress.skipped
  /-- Every candidate that is listed was dealt with once, or else is ahead. -/
  listings : entries.filterMap Entry.pair? ++ ahead = pairs listed
  balance : job.task.progress.processed - job.task.progress.skipped = job.task.tally.processed

theorem Kept.accounted (h : Kept out start listed entries ahead job) {last : Resolve α}
    {completed : Bool} (haccount : account last = account { job with completed := completed }) :
    Accounted out start listed entries ahead last := by
  simp only [account, Prod.mk.injEq] at haccount
  obtain ⟨htally, ⟨hprocessed, hskipped⟩, -⟩ := haccount
  have hbooks : Books out start.task entries last.task.tally last.task.progress.processed
      last.task.progress.skipped := by
    rw [htally, hprocessed, hskipped]
    exact h.books
  exact ⟨hbooks, h.listings, hbooks.balance⟩

/-- Every candidate is accounted for once, whatever comes in the way of a resolution and whatever the
nodes reply. At every point between two candidates the books of a resolution are balanced, and they are
those of the candidates before it; and so they are at its end. When a resolution is complete, no
candidate is ahead, and all that are listed are processed. -/
theorem accounts_for_candidates (out : Outside α) (catalog : List Definition) (folder : Folder)
    (listed : List (String × List String)) (nodes : List (String × Json)) (rounds : Int)
    (timeout : Float) (interval : α) (journal : Journal α) :
    let start := ofListed catalog folder listed nodes rounds timeout interval journal
    ∃ begun result last, (begin out).go start = (.ok (), begun) ∧
      (run out).go start = (result, last) ∧
      (∀ entries p, Reaches out start listed entries p →
        Accounted out start listed entries p.ahead p.job ∧ (work out).go begun = p.resume out) ∧
      ∃ entries p, Reaches out start listed entries p ∧
        Accounted out start listed entries p.ahead last ∧
        (last.completed = true →
          p.ahead = [] ∧ last.task.progress.processed = listedCount listed) := by
  intro start
  obtain ⟨begun, hbegin, hcandidates, hbegun⟩ :=
    kept_begin out catalog folder listed nodes rounds timeout interval journal
  have hreached : ∀ {entries p}, Reaches out start listed entries p →
      Kept out start listed entries p.ahead p.job ∧ p.Numbered start.task.nodes ∧
        (work out).go begun = p.resume out :=
    fun h => h.kept hbegin hbegun hcandidates
  cases hrun : (run out).go start with
  | mk result last =>
  refine ⟨begun, result, last, hbegin, rfl, fun entries p h => ?_, ?_⟩
  · obtain ⟨hkept, -, hresume⟩ := hreached h
    exact ⟨hkept.accounted rfl, hresume⟩
  · have hfirst : Reaches out start listed [] (.between listed begun) := .begun hbegin
    obtain ⟨entries, p, h, r, worked, hresume, hstanding, hrests⟩ :=
      hfirst.exists_rests hbegun trivial
    obtain ⟨hkept, -, hwork⟩ := hreached h
    have hworked := hkept.of_standing hstanding
    obtain ⟨completed, haccount, hcompleted⟩ := account_run hbegin (hwork.trans hresume) hrun
    have haccounted := hworked.accounted haccount
    refine ⟨entries, p, h, haccounted, fun hlast => ?_⟩
    have hmark : last.completed = completed := congrArg (·.2.2) haccount
    obtain ⟨hr, hgoing⟩ := hcompleted (hmark.symm.trans hlast) hworked.completed
    have hnone := hrests hr hgoing
    have hlistings := haccounted.listings
    rw [hnone, List.append_nil] at hlistings
    refine ⟨hnone, ?_⟩
    rw [haccounted.books.processed_eq, hlistings, length_pairs]

/-- The corpus has the code of one contract, in which there are two patterns, and no node answers. -/
def oneOfFive : Outside Rat where
  reply _ _ := ⟨0, .http 500 .empty⟩
  jitter _ := 0
  stopwatch _ := .real 0
  date _ := 0
  stop _ := false
  disturbance _ := none
  rows := []
  codes chain key :=
    if chain = 1 ∧ key = "1111111111111111111111111111111111111111" then
      [.str "0x635c60da1b6359659e90f4"]
    else []
  flushFault _ := none

/-- Candidates on a chain with a node, on one that has no number, and on one without a node. -/
def onThreeChains : List (String × List String) := [
  ("1", ["0x1111111111111111111111111111111111111111", "0x2222222222222222222222222222222222222222"]),
  ("x", ["0x3333333333333333333333333333333333333333"]),
  ("10", ["0x4444444444444444444444444444444444444444",
    "0x1111111111111111111111111111111111111111"])]

def startOnThreeChains : Resolve Rat :=
  ofListed Catalog.builtIn ⟨["out"], "out"⟩ onThreeChains
    [("1", .str "http://rpc"), ("x", .str "http://rpc")] 1 30 0 { clock := 0 }

theorem accounts_for_candidates_on_three_chains :
    ∃ result last entries, (run oneOfFive).go startOnThreeChains = (result, last) ∧
      last.completed = true ∧ Accounted oneOfFive startOnThreeChains onThreeChains entries [] last ∧
      last.task.progress.processed = 5 ∧ last.task.progress.skipped = 4 ∧
      last.task.tally.processed = 1 := by
  have hmarks : ((run oneOfFive).go startOnThreeChains).2.completed = true ∧
      ((run oneOfFive).go startOnThreeChains).2.task.progress.skipped = 4 := by decide +kernel
  obtain ⟨begun, result, last, -, hrun, -, entries, p, -, haccounted, hends⟩ :=
    accounts_for_candidates oneOfFive Catalog.builtIn ⟨["out"], "out"⟩ onThreeChains
      [("1", .str "http://rpc"), ("x", .str "http://rpc")] 1 30 (0 : Rat) { clock := 0 }
  change (run oneOfFive).go startOnThreeChains = (result, last) at hrun
  rw [hrun] at hmarks
  obtain ⟨hcompleted, hskipped⟩ := hmarks
  obtain ⟨hahead, hprocessed⟩ := hends hcompleted
  rw [hahead] at haccounted
  have hfive : last.task.progress.processed = 5 := hprocessed
  have hbalance := haccounted.balance
  rw [hfive, hskipped] at hbalance
  exact ⟨result, last, entries, hrun, hcompleted, haccounted, hfive, hskipped, by omega⟩

end ProxyCensus.Resolve
