import ProxyCensus.Analysis
import ProxyCensus.Proofs.Contract.Classification
import ProxyCensus.Proofs.Resolution

/-!
# What an analysis adds

Main statements: an analysis keeps what detection says of a contract, whatever the nodes answer, and
adds distinct contracts behind its patterns only; and on a steady client it has no failures of its own.
-/

namespace ProxyCensus

open Resolution (Genuine Shaped)

/-- The classification `c'` says what `c` says of the contract and its patterns. It names at most `n`
implementations, all of them normal forms, and so are its facets. -/
structure Classification.Extends (c : Classification) (n : Nat) (c' : Classification) : Prop where
  chainId : c'.chainId = c.chainId
  address : c'.address = c.address
  kind : c'.kind = c.kind
  patterns : c'.patterns = c.patterns
  few : c'.implementations.length ≤ n
  implementations : ∀ a ∈ c'.implementations, Genuine a
  facets : ∀ a ∈ c'.facets, Genuine a

namespace Analysis

variable {α : Type} {c c' : Classification} {n : Nat}

theorem length_addNew (addresses : List String) :
    ∀ known, (addNew known addresses).length ≤ known.length + addresses.length := by
  induction addresses with
  | nil => exact fun known => Nat.le_refl _
  | cons a rest ih =>
    intro known
    have hrest := ih (if known.contains a then known else known ++ [a])
    unfold addNew at hrest ⊢
    rw [List.foldl_cons, List.length_cons]
    split at hrest
    · rw [if_pos ‹_›]
      omega
    · rw [if_neg ‹_›]
      rw [List.length_append, List.length_singleton] at hrest
      omega

theorem mem_addNew {a : String} (addresses : List String) :
    ∀ {known}, a ∈ addNew known addresses → a ∈ known ∨ a ∈ addresses := by
  induction addresses with
  | nil => exact fun h => .inl h
  | cons b rest ih =>
    intro known h
    rcases @ih (if known.contains b then known else known ++ [b]) h with h | h
    · split at h
      · exact .inl h
      · rcases List.mem_append.1 h with h | h
        · exact .inl h
        · exact .inr (List.mem_singleton.1 h ▸ List.mem_cons_self)
    · exact .inr (List.mem_cons_of_mem _ h)

theorem extends_addOutcome (h : c.Extends n c') {m : Match} (hm : m.pattern ≠ .diamond)
    {found : Option Resolved} (hfound : ∀ r ∈ found, Shaped m r) :
    c.Extends (n + 1) (addOutcome c' m.pattern found) := by
  cases found with
  | none => exact { h with few := h.few.trans (Nat.le_succ n) }
  | some r =>
    have hr := hfound r rfl
    refine { h with few := ?_, implementations := fun a ha => ?_ }
    · have hlength := length_addNew r.addresses c'.implementations
      have hone := hr.single hm
      have hfew := h.few
      dsimp only [addOutcome]
      omega
    · rcases mem_addNew r.addresses ha with ha | ha
      · exact h.implementations a ha
      · exact hr.genuine a ha

theorem extends_addFacets (h : c.Extends n c') {m : Match} {found : Option Resolved}
    (hfound : ∀ r ∈ found, Shaped m r) : c.Extends n (addFacets c' found) := by
  cases found with
  | none => exact { h with }
  | some r =>
    refine { h with facets := fun a ha => ?_ }
    rcases List.mem_append.1 ha with ha | ha
    · exact h.facets a ha
    · exact (hfound r rfl).genuine a ha

variable [Seconds α] (out : Outside α) (chain : Option Int)

theorem resolveEach_yields (found : List Match) :
    ∀ {n : Nat} {c' : Classification}, c.Extends n c' → (∀ m ∈ found, m.pattern ≠ .diamond) →
      (resolveEach out chain c' found).Yields (c.Extends (n + found.length)) := by
  induction found with
  | nil => exact fun h _ => .pure h
  | cons m rest ih =>
    intro n c' h hfound
    obtain ⟨hm, hrest⟩ := List.forall_mem_cons.1 hfound
    refine (Resolution.resolve_yields out chain m c'.address).bind fun r hr => ?_
    rw [List.length_cons, Nat.add_comm rest.length, ← Nat.add_assoc]
    exact ih (extends_addOutcome h hm hr) hrest

/-- An analysis keeps what detection says. -/
theorem resolve_yields (record : ContractRecord) (found : List Match) :
    (resolve out chain record found).Yields
      ((Classification.ofMatches record found).Extends found.length) := by
  have hstart : (Classification.ofMatches record found).Extends 0
      (Classification.ofMatches record found) := by
    refine ⟨rfl, rfl, rfl, rfl, Nat.le_refl 0, ?_, ?_⟩ <;>
    · intro a ha
      cases ha
  have hstart' : (Classification.ofMatches record found).Extends found.length
      (Classification.ofMatches record found) := { hstart with few := Nat.zero_le _ }
  unfold resolve
  dsimp only
  split
  · exact .pure hstart'
  · split
    · rename_i m _
      refine (Resolution.resolve_yields out chain m record.address).bind fun r hr => ?_
      exact .pure (extends_addFacets hstart' hr)
    · exact .pure hstart'
  · rename_i hdiamond
    have hfound : ∀ m ∈ found, m.pattern ≠ .diamond := by
      intro m hm heq
      exact hdiamond (Kind.ofPatterns_eq_diamond_iff.2 (heq ▸ List.mem_map_of_mem hm))
    rw [← Nat.zero_add found.length]
    refine (resolveEach_yields out chain found hstart hfound).bind fun c' h => ?_
    exact .after fun _ => .pure h

theorem resolveEach_fails (found : List Match) :
    ∀ c, Line.FailsOnly out (fun _ => False) (resolveEach out chain c found) := by
  induction found with
  | nil => exact fun c => .pure c
  | cons m rest ih => exact fun c => (Resolution.resolve_fails out chain m c.address).bind fun r => ih _

/-- On a steady client an analysis has no failures of its own. -/
theorem resolve_fails (record : ContractRecord) (found : List Match) :
    Line.FailsOnly out (fun _ => False) (resolve out chain record found) := by
  unfold resolve
  dsimp only
  split
  · exact .pure _
  · split
    · exact (Resolution.resolve_fails out chain _ _).bind fun r => .pure _
    · exact .pure _
  · refine (resolveEach_fails out chain found _).bind fun c => ?_
    have hreport : Line.FailsOnly out (fun _ => False) (reportUnresolved c) := by
      unfold reportUnresolved
      split
      · exact .log
      · exact .pure _
    exact hreport.bind fun _ => .pure _

end Analysis

end ProxyCensus
