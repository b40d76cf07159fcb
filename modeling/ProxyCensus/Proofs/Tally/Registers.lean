import ProxyCensus.Proofs.Tally.Balance
import ProxyCensus.Proofs.Tally.Order

/-!
# The chains of a tally

A tally has a list of the chains that were worked on, and chains among the keys of its registries. Main
statement: a contract adds the text of its chain's number to the registries if it is a diamond or has
several implementations, and to the list only what the tally is told of is added.
-/

namespace ProxyCensus

namespace Ledger

variable {κ ν : Type} [DecidableEq κ]

theorem mem_keys_updateIf {l : Ledger κ ν} {b : Bool} {key k : κ} {f : Option ν → ν} :
    k ∈ (updateIf b l key f).keys ↔ k ∈ l.keys ∨ b = true ∧ k = key := by
  unfold updateIf
  cases b with
  | false => simp
  | true =>
    rw [if_pos rfl, keys_update]
    split
    · rename_i hkey
      exact ⟨.inl, fun h => h.elim id fun h => h.2 ▸ hkey⟩
    · simp

end Ledger

namespace ResolutionTally

open Ledger

/-- A chain is among the keys of a registry. -/
def Registers (t : ResolutionTally) (chain : String) : Prop :=
  chain ∈ t.diamonds.keys ∨ chain ∈ t.facets.keys ∨ chain ∈ t.several.keys

/-- A contract that goes into a registry: a diamond, or one with several implementations. -/
def Registered (c : Classification) : Prop :=
  c.isDiamond = true ∨ 1 < c.implementationCount

/-- Every chain of the registries is in the list of chains, and no two of the list have one number. -/
structure Aligned (t : ResolutionTally) : Prop where
  registered : ∀ chain, t.Registers chain → chain ∈ t.chains
  apart : t.chains.Pairwise fun chain chain' => Text.int? chain ≠ Text.int? chain'

variable {t : ResolutionTally} {c : Classification} {chain name : String}

theorem not_registers_empty : ¬({} : ResolutionTally).Registers chain := by
  rintro (h | h | h) <;> cases h

theorem nodup_chains_addChain (h : t.chains.Nodup) (name : String) : (t.addChain name).chains.Nodup := by
  by_cases hname : name ∈ t.chains
  · rwa [addChain_of_mem hname]
  · rw [addChain_of_not_mem hname]
    exact List.nodup_append'.2 ⟨h, List.nodup_singleton name, List.disjoint_singleton.2 hname⟩

theorem registers_addChain : (t.addChain name).Registers chain ↔ t.Registers chain := by
  obtain ⟨chains, heq⟩ := t.addChain_eq name
  rw [heq]
  rfl

/-- A contract that goes into a registry adds the text of its chain's number, and no contract adds
anything else. -/
theorem registers_record : (t.record c).Registers chain ↔
    t.Registers chain ∨ Registered c ∧ chain = toString c.chainId := by
  unfold Registers Registered
  rw [record_eq]
  simp only [mem_keys_updateIf, Bool.and_eq_true, Bool.not_eq_true', decide_eq_true_eq]
  cases c.isDiamond <;> simp <;> tauto

theorem mem_chains_change {change : Change} : chain ∈ (t.change change).chains ↔
    chain ∈ t.chains ∨ .chain chain = change := by
  cases change with
  | chain name => rw [Change.chain.injEq]; exact mem_chains_addChain
  | contract c => simp [ResolutionTally.change, chains_record]

theorem registers_change {change : Change} : (t.change change).Registers chain ↔
    t.Registers chain ∨ ∃ c, .contract c = change ∧ Registered c ∧ chain = toString c.chainId := by
  cases change with
  | chain name => simp [ResolutionTally.change, registers_addChain]
  | contract c => simp [ResolutionTally.change, registers_record]

/-- The chains in the list after some changes are those from before and those that the tally was told. -/
theorem mem_chains_changes (changes : List Change) : ∀ t : ResolutionTally,
    chain ∈ (changes.foldl change t).chains ↔ chain ∈ t.chains ∨ .chain chain ∈ changes := by
  induction changes with
  | nil => simp
  | cons change rest ih =>
    intro t
    rw [List.foldl_cons, ih, mem_chains_change, List.mem_cons, or_assoc]

/-- The chains in the registries after some changes are those from before and those of the contracts that
go into a registry. -/
theorem registers_changes (changes : List Change) : ∀ t : ResolutionTally,
    (changes.foldl change t).Registers chain ↔ t.Registers chain ∨
      ∃ c, .contract c ∈ changes ∧ Registered c ∧ chain = toString c.chainId := by
  induction changes with
  | nil => simp
  | cons change rest ih =>
    intro t
    rw [List.foldl_cons, ih, registers_change, or_assoc]
    refine or_congr_right ?_
    simp only [List.mem_cons, or_and_right, exists_or]

end ResolutionTally

end ProxyCensus
