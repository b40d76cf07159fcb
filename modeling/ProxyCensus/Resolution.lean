import ProxyCensus.Detection
import ProxyCensus.Evm.Abi
import ProxyCensus.Rpc.Client

/-!
# Resolution

Finding the contract behind a proxy by asking the chain. A resolution that fails for a reason of its
own, a node that refuses or an answer that cannot be read, is reported by one warning and yields
nothing; so does the zero address, which is no contract.
-/

namespace ProxyCensus

/-- The contracts behind one pattern of a proxy: one address, or the facets of a diamond. -/
structure Resolved where
  pattern : Pattern
  method : Method
  addresses : List String

namespace Resolution

variable {α : Type}

def log (level : Level) (message : String) : Act (Line α) Unit :=
  Line.writing (Journal.log level "Implementation Resolver Service" message)

def textOf (source : String) : Json → Except Failure String
  | .str s => .ok s
  | v => .error (.unresolvable s!"{source} returned a non-hex result: {v.literal}")

def answerBytes (text : String) : Except String (List UInt8) :=
  (Hex.decode (Hex.clean text)).mapError Hex.faultMessage

/-- An address that is not zero. -/
def nonzero? (address : String) : Option String :=
  if address == Address.zero then none else some address

def addressOfAnswer (answer : Json) : Except Failure (Option String) := do
  let text ← textOf "Accessor" answer
  if text.isEmpty || text == "0x" then throw (.unresolvable "Accessor returned no data")
  match (answerBytes text).bind Evm.Abi.address with
  | .ok bytes => return nonzero? (Address.ofBytes bytes)
  | .error reason => throw (.unresolvable s!"Accessor returned undecodable data: {reason}")

/-- Every address once, in the order of the first appearance, without the zero address. -/
def distinctNonzero (addresses : List String) : List String :=
  (addresses.filter (· != Address.zero)).eraseDups

def facetsOfAnswer (answer : Json) : Except Failure (List String) := do
  let text ← textOf "facetAddresses()" answer
  match (answerBytes text).bind Evm.Abi.addresses with
  | .ok facets => return distinctNonzero (facets.map Address.ofBytes)
  | .error reason => throw (.unresolvable s!"facetAddresses() returned undecodable data: {reason}")

def addressOfSlot (answer : Json) : Except Failure (Option String) := do
  return Address.ofWord? (← textOf "eth_getStorageAt" answer)

def fromCode (m : Match) : Option String :=
  (m.implementation.bind Address.normalize?).bind nonzero?

def selectorFor (m : Match) (d : Definition) : Option String :=
  match m.selector with
  | some s => if s.isEmpty then d.accessor else some s
  | none => d.accessor

variable [Seconds α]

def fromSlot (out : Outside α) (m : Match) (address : String) : Act (Line α) (Option String) := do
  match m.slot with
  | none => throw (.unresolvable s!"{m.pattern.name} match carries no storage slot")
  | some slot =>
    let slot := if slot == Catalog.ownAddressSlot then Address.slot address else slot
    Act.lift (addressOfSlot (← Line.ask out (.slotOf address slot)))

def fromAccessor (out : Outside α) (address : String) (selector : Option String) :
    Act (Line α) (Option String) := do
  match selector with
  | none => throw (.unresolvable s!"No accessor selector to call on {address}")
  | some selector => Act.lift (addressOfAnswer (← Line.ask out (.callOf address (.str selector))))

/-- Finds the beacon of a proxy: in its slot when the match has one, or else by calling it. -/
def findBeacon (out : Outside α) (m : Match) (address : String) : Act (Line α) (Option String) := do
  match m.slot with
  | some slot => Act.lift (addressOfSlot (← Line.ask out (.slotOf address slot)))
  | none =>
    let selector := match m.selector with
      | some s => .str s
      | none => .null
    Act.lift (addressOfAnswer (← Line.ask out (.callOf address selector)))

def fromBeacon (out : Outside α) (m : Match) (address : String) (accessor : Option String) :
    Act (Line α) (Option String) := do
  match ← findBeacon out m address with
  | none => return none
  | some beacon => fromAccessor out beacon accessor

def fromFacets (out : Outside α) (address : String) (selector : Option String) :
    Act (Line α) (List String) := do
  match selector with
  | none => throw (.unresolvable s!"No facet enumeration selector to call on {address}")
  | some selector => Act.lift (facetsOfAnswer (← Line.ask out (.callOf address (.str selector))))

def addresses (out : Outside α) (m : Match) (address : String) : Act (Line α) (List String) := do
  let row := Catalog.row m.pattern
  match row.method with
  | .bytecode => return (fromCode m).toList
  | .storageSlot => return (← fromSlot out m address).toList
  | .accessorCall => return (← fromAccessor out address (selectorFor m row)).toList
  | .beacon => return (← fromBeacon out m address row.accessor).toList
  | .facetEnumeration => fromFacets out address (selectorFor m row)

/-- Whether a failure is the resolution's own and not one of the program or its surroundings. -/
def isOwn : Failure → Bool
  | .request _ | .unresolvable _ => true
  | _ => false

def chainText : Option Int → String
  | some n => toString n
  | none => "None"

def resolve (out : Outside α) (chain : Option Int) (m : Match) (address : String) :
    Act (Line α) (Option Resolved) := do
  let name := m.pattern.name
  let chain := chainText chain
  match ← (addresses out m address).outcome with
  | .ok [] =>
    log .debug s!"{name} for {address} on chain {chain} resolved to the zero address"
    return none
  | .ok found => return some ⟨m.pattern, (Catalog.row m.pattern).method, found⟩
  | .error f =>
    if isOwn f then
      let reason := f.message
      log .warning s!"Could not resolve {name} for {address} on chain {chain}: {reason}"
      return none
    else throw f

end Resolution

end ProxyCensus
