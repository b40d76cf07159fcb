import ProxyCensus.Proofs.Act
import ProxyCensus.Resolution

/-!
# Inquiries

A resolution as it looks from the client: a tree of questions that branches with the answers. Main
statement: what a resolution does is to run the inquiry of its match, and to report how it ended.
-/

namespace ProxyCensus

/-- A computation that asks questions and goes on with the answers. -/
inductive Inquiry (β : Type) where
  | done (result : Except Failure β)
  | ask (request : Request) (next : Json → Inquiry β)

namespace Inquiry

variable {α β γ : Type}

/-- Asks one question and reads the answer. -/
def reading (request : Request) (read : Json → Except Failure β) : Inquiry β :=
  .ask request fun answer => .done (read answer)

def map (g : β → γ) : Inquiry β → Inquiry γ
  | .done result => .done (result.map g)
  | .ask request next => .ask request fun answer => (next answer).map g

def bind : Inquiry β → (β → Inquiry γ) → Inquiry γ
  | .done (.ok b), f => f b
  | .done (.error e), _ => .done (.error e)
  | .ask request next, f => .ask request fun answer => (next answer).bind f

/-- The requests that a client is asked. What it makes of a request may depend on all that it was
asked up to that request; where it fails, nothing more is asked. -/
def requests (client : List Request → Except Failure Json) (asked : List Request) :
    Inquiry β → List Request
  | .done _ => []
  | .ask request next =>
    let asked := asked ++ [request]
    request :: match client asked with
      | .ok answer => (next answer).requests client asked
      | .error _ => []

def Raises (f : Failure) : Inquiry β → Prop
  | .done result => result = .error f
  | .ask _ next => ∃ answer, (next answer).Raises f

@[simp] theorem requests_map (g : β → γ) (client : List Request → Except Failure Json)
    (asked : List Request) (x : Inquiry β) :
    (x.map g).requests client asked = x.requests client asked := by
  induction x generalizing asked with
  | done result => rfl
  | ask request next ih => simp only [map, requests, ih]

theorem raises_of_map {g : β → γ} {f : Failure} {x : Inquiry β} (h : (x.map g).Raises f) :
    x.Raises f := by
  induction x with
  | done result =>
    cases result with
    | ok b => cases h
    | error e => exact congrArg Except.error (Except.error.inj h)
  | ask request next ih =>
    obtain ⟨answer, h⟩ := h
    exact ⟨answer, ih answer h⟩

theorem raises_of_bind {g : β → Inquiry γ} {f : Failure} {x : Inquiry β} (h : (x.bind g).Raises f) :
    x.Raises f ∨ ∃ b, (g b).Raises f := by
  induction x with
  | done result =>
    cases result with
    | ok b => exact .inr ⟨b, h⟩
    | error e => exact .inl (congrArg Except.error (Except.error.inj h))
  | ask request next ih =>
    obtain ⟨answer, h⟩ := h
    exact (ih answer h).imp_left fun h => ⟨answer, h⟩

variable [Seconds α]

def run (out : Outside α) : Inquiry β → Act (Line α) β
  | .done result => Act.lift result
  | .ask request next => do (next (← Line.ask out request)).run out

theorem run_map (out : Outside α) (g : β → γ) (x : Inquiry β) :
    (x.map g).run out = do return g (← x.run out) := by
  induction x with
  | done result => cases result <;> rfl
  | ask request next ih => simp only [map, run, ih, bind_assoc]

theorem run_bind (out : Outside α) (x : Inquiry β) (f : β → Inquiry γ) :
    (x.bind f).run out = x.run out >>= fun b => (f b).run out := by
  induction x with
  | done result => cases result <;> rfl
  | ask request next ih => simp only [bind, run, ih, bind_assoc]

end Inquiry

namespace Resolution

variable {α : Type}

def slotInquiry (m : Match) (address : String) : Inquiry (Option String) :=
  match m.slot with
  | none => .done (.error (.unresolvable s!"{m.pattern.name} match carries no storage slot"))
  | some slot =>
    let slot := if slot == Catalog.ownAddressSlot then Address.slot address else slot
    .reading (.slotOf address slot) addressOfSlot

def accessorInquiry (address : String) : Option String → Inquiry (Option String)
  | none => .done (.error (.unresolvable s!"No accessor selector to call on {address}"))
  | some selector => .reading (.callOf address (.str selector)) addressOfAnswer

def beaconInquiry (m : Match) (address : String) : Inquiry (Option String) :=
  match m.slot with
  | some slot => .reading (.slotOf address slot) addressOfSlot
  | none =>
    let selector := match m.selector with
      | some s => .str s
      | none => .null
    .reading (.callOf address selector) addressOfAnswer

def behindBeacon (accessor : Option String) : Option String → Inquiry (Option String)
  | none => .done (.ok none)
  | some beacon => accessorInquiry beacon accessor

def facetInquiry (address : String) : Option String → Inquiry (List String)
  | none =>
    .done (.error (.unresolvable s!"No facet enumeration selector to call on {address}"))
  | some selector => .reading (.callOf address (.str selector)) facetsOfAnswer

def inquiry (m : Match) (address : String) : Inquiry (List String) :=
  let row := Catalog.row m.pattern
  match row.method with
  | .bytecode => .done (.ok (fromCode m).toList)
  | .storageSlot => (slotInquiry m address).map Option.toList
  | .accessorCall => (accessorInquiry address (selectorFor m row)).map Option.toList
  | .beacon => ((beaconInquiry m address).bind (behindBeacon row.accessor)).map Option.toList
  | .facetEnumeration => facetInquiry address (selectorFor m row)

def report (chain : Option Int) (m : Match) (address : String) :
    Except Failure (List String) → Act (Line α) (Option Resolved)
  | .ok [] => do
    log .debug
      s!"{m.pattern.name} for {address} on chain {chainText chain} resolved to the zero address"
    return none
  | .ok found => return some ⟨m.pattern, (Catalog.row m.pattern).method, found⟩
  | .error f =>
    if isOwn f then do
      log .warning
        s!"Could not resolve {m.pattern.name} for {address} on chain {chainText chain}: {f.message}"
      return none
    else throw f

variable [Seconds α] (out : Outside α)

theorem run_slotInquiry (m : Match) (address : String) :
    (slotInquiry m address).run out = fromSlot out m address := by
  unfold slotInquiry fromSlot
  cases m.slot <;> rfl

theorem run_accessorInquiry (address : String) (selector : Option String) :
    (accessorInquiry address selector).run out = fromAccessor out address selector := by
  cases selector <;> rfl

theorem run_beaconInquiry (m : Match) (address : String) :
    (beaconInquiry m address).run out = findBeacon out m address := by
  unfold beaconInquiry findBeacon
  cases m.slot <;> rfl

theorem run_behindBeacon (m : Match) (address : String) (accessor : Option String) :
    ((beaconInquiry m address).bind (behindBeacon accessor)).run out =
      fromBeacon out m address accessor := by
  rw [Inquiry.run_bind, run_beaconInquiry, fromBeacon]
  refine bind_congr fun found => ?_
  cases found with
  | none => rfl
  | some beacon => exact run_accessorInquiry out beacon accessor

theorem run_facetInquiry (address : String) (selector : Option String) :
    (facetInquiry address selector).run out = fromFacets out address selector := by
  cases selector <;> rfl

/-- The addresses behind a match are found by the inquiry into them. -/
theorem run_inquiry (m : Match) (address : String) :
    (inquiry m address).run out = addresses out m address := by
  unfold inquiry addresses
  dsimp only
  cases (Catalog.row m.pattern).method with
  | bytecode => rfl
  | storageSlot => rw [Inquiry.run_map, run_slotInquiry]
  | accessorCall => rw [Inquiry.run_map, run_accessorInquiry]
  | beacon => rw [Inquiry.run_map, run_behindBeacon]
  | facetEnumeration => exact run_facetInquiry out address _

/-- A resolution runs the inquiry into its match and reports how it ended. -/
theorem resolve_eq_report (chain : Option Int) (m : Match) (address : String) :
    resolve out chain m address =
      ((inquiry m address).run out).outcome >>= report chain m address := by
  rw [run_inquiry, resolve]
  refine bind_congr fun outcome => ?_
  cases outcome with
  | ok found => cases found <;> rfl
  | error f => rfl

end Resolution

end ProxyCensus
