import ProxyCensus.Contract.Classification
import ProxyCensus.Resolution

/-!
# Analysis

The classification of one contract with the contracts behind its patterns. The facets of a diamond
are kept apart and outweigh all its other patterns, which are not resolved.
-/

namespace ProxyCensus.Analysis

variable {α : Type} [Seconds α]

/-- The addresses that are not known yet are added in their order. -/
def addNew (known addresses : List String) : List String :=
  addresses.foldl (fun known a => if known.contains a then known else known ++ [a]) known

def addOutcome (c : Classification) (p : Pattern) : Option Resolved → Classification
  | some r => { c with implementations := addNew c.implementations r.addresses }
  | none => { c with unresolved := c.unresolved ++ [p] }

def addFacets (c : Classification) : Option Resolved → Classification
  | some r => { c with facets := c.facets ++ r.addresses }
  | none => { c with unresolved := c.unresolved ++ [.diamond] }

def resolveEach (out : Outside α) (chain : Option Int) (c : Classification) :
    List Match → Act (Line α) Classification
  | [] => pure c
  | m :: rest => do
    let r ← Resolution.resolve out chain m c.address
    resolveEach out chain (addOutcome c m.pattern r) rest

def reportUnresolved (c : Classification) : Act (Line α) Unit := do
  if !c.unresolved.isEmpty then
    let names := Classification.labelOf c.unresolved
    Line.writing (Journal.log .debug "Contract Analyzer Service"
      s!"Unresolved patterns for {c.address} on chain {c.chainId}: {names}")

def resolve (out : Outside α) (chain : Option Int) (record : ContractRecord) (found : List Match) :
    Act (Line α) Classification := do
  let c := Classification.ofMatches record found
  match c.kind with
  | .nonProxy => return c
  | .diamond =>
    match found.find? (·.pattern == .diamond) with
    | some m => return addFacets c (← Resolution.resolve out chain m record.address)
    | none => return c
  | _ =>
    let c ← resolveEach out chain c found
    reportUnresolved c
    return c

def analyze (out : Outside α) (chain : Option Int) (catalog : List Definition)
    (record : ContractRecord) : Act (Line α) Classification := do
  let found ← Act.lift (Detection.inText catalog record.bytecode)
  resolve out chain record found

end ProxyCensus.Analysis
