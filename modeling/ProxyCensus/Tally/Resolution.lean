import ProxyCensus.Contract.Classification
import ProxyCensus.Json.Document
import ProxyCensus.Tally.Ledger

/-!
# Tally of the resolution

What the resolution of candidates counts. A contract goes either into the registry of diamonds or
into the two histograms, never into both.
-/

namespace ProxyCensus

structure ResolutionTally where
  processed : Nat := 0
  chains : List String := []
  /-- Contracts by the names of their patterns. -/
  types : Ledger String Nat := {}
  /-- Contracts by the number of their implementations. -/
  counts : Ledger Nat Nat := {}
  /-- The names of the patterns and then the implementations, by chain and address. -/
  several : Ledger String (Ledger String (List String)) := {}
  diamonds : Ledger String (List String) := {}
  facets : Ledger String (Ledger String (List String)) := {}

namespace ResolutionTally

def addChain (t : ResolutionTally) (chain : String) : ResolutionTally :=
  if t.chains.contains chain then t else { t with chains := t.chains ++ [chain] }

section

variable {t : ResolutionTally} {chain name : String}

theorem addChain_of_mem (h : name ∈ t.chains) : t.addChain name = t :=
  if_pos (List.contains_iff_mem.2 h)

theorem addChain_of_not_mem (h : name ∉ t.chains) :
    t.addChain name = { t with chains := t.chains ++ [name] } :=
  if_neg fun hmem => h (List.contains_iff_mem.1 hmem)

theorem addChain_eq (t : ResolutionTally) (name : String) :
    ∃ chains, t.addChain name = { t with chains } := by
  by_cases h : name ∈ t.chains
  · exact ⟨t.chains, addChain_of_mem h⟩
  · exact ⟨_, addChain_of_not_mem h⟩

theorem mem_chains_addChain : chain ∈ (t.addChain name).chains ↔ chain ∈ t.chains ∨ chain = name := by
  by_cases h : name ∈ t.chains
  · rw [addChain_of_mem h]
    exact ⟨.inl, fun hmem => hmem.elim id (· ▸ h)⟩
  · rw [addChain_of_not_mem h]
    simp

end

def putAddress (l : Ledger String (Ledger String (List String))) (chain address : String)
    (items : List String) : Ledger String (Ledger String (List String)) :=
  l.update chain fun known => (known.getD {}).put address items

def recordDiamond (t : ResolutionTally) (c : Classification) : ResolutionTally :=
  let chain := toString c.chainId
  { t with
    processed := t.processed + 1
    diamonds := t.diamonds.append chain c.address
    facets := if c.facets.isEmpty then t.facets else putAddress t.facets chain c.address c.facets }

def recordOther (t : ResolutionTally) (c : Classification) : ResolutionTally :=
  let n := c.implementationCount
  { t with
    processed := t.processed + 1
    types := t.types.tally c.label
    counts := t.counts.tally n
    several := if 1 < n then
        putAddress t.several (toString c.chainId) c.address (c.label :: c.implementations)
      else t.several }

def record (t : ResolutionTally) (c : Classification) : ResolutionTally :=
  if c.isDiamond then t.recordDiamond c else t.recordOther c

theorem chains_record (t : ResolutionTally) (c : Classification) : (t.record c).chains = t.chains := by
  unfold record
  split
  · rfl
  · rfl

def nested (l : Ledger String (Ledger String (List String))) : Document :=
  .table (l.entries.map fun chain =>
    (.text chain.1, .table (chain.2.entries.map fun e => (.text e.1, .texts e.2))))

def artifacts (t : ResolutionTally) : List (String × Document) := [
  ("result.json", .table [
    (.text "processedContracts", .count t.processed),
    (.text "checkedChains", .texts t.chains),
    (.text "numberOfImplementationAddressesCount",
      .table (t.counts.entries.map fun e => (.int e.1, .count e.2))),
    (.text "multiProxyContractTypes",
      .table (t.types.entries.map fun e => (.text e.1, .count e.2)))]),
  ("multi-implementation-addresses.json", nested t.several),
  ("diamond-proxies.json", .table (t.diamonds.entries.map fun e => (.text e.1, .texts e.2))),
  ("diamond-facets.json", nested t.facets)]

end ResolutionTally

end ProxyCensus
