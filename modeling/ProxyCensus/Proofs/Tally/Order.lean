import ProxyCensus.Proofs.Tally.Ledger
import ProxyCensus.Proofs.Text.Integer
import ProxyCensus.Tally.Resolution

/-!
# The order in which contracts are counted

Two ledgers may differ in the order of their keys, and two lists in the order of their items. Main
statement: when contracts of distinct places are counted and chains are entered in another order, the tally
differs only in this way.
-/

namespace ProxyCensus

namespace Ledger

variable {κ ν : Type} [DecidableEq κ] {R : ν → ν → Prop} {l l' l'' : Ledger κ ν} {key key' : κ}
  {f g : Option ν → ν}

def SameBy (R : ν → ν → Prop) (l l' : Ledger κ ν) : Prop :=
  ∀ key, Option.Rel R (l.get? key) (l'.get? key)

theorem SameBy.refl (hrefl : ∀ v, R v v) (l : Ledger κ ν) : SameBy R l l := by
  intro key
  cases l.get? key with
  | none => exact .none
  | some v => exact .some (hrefl v)

theorem SameBy.trans (htrans : ∀ {u v w}, R u v → R v w → R u w) (h : SameBy R l l')
    (h' : SameBy R l' l'') :
    SameBy R l l'' := by
  intro key
  have hfirst := h key
  have hsecond := h' key
  generalize l.get? key = u at hfirst
  generalize l'.get? key = v at hfirst hsecond
  generalize l''.get? key = w at hsecond
  cases hfirst with
  | none => exact hsecond
  | some hfirst =>
    cases hsecond with
    | some hsecond => exact .some (htrans hfirst hsecond)

theorem SameBy.update (h : SameBy R l l') (key : κ)
    (hf : ∀ u v, Option.Rel R u v → R (f u) (f v)) : SameBy R (l.update key f) (l'.update key f) := by
  intro k
  rw [get?_update, get?_update]
  split
  · exact .some (hf _ _ (h key))
  · exact h k

/-- Two updates can be made in either order if those of one and the same key can. -/
theorem sameBy_update_update (hrefl : ∀ v, R v v) (l : Ledger κ ν)
    (h : key = key' → ∀ v, R (g (some (f v))) (f (some (g v)))) :
    SameBy R ((l.update key f).update key' g) ((l.update key' g).update key f) := by
  intro k
  simp only [get?_update]
  by_cases hkeys : key = key'
  · subst hkeys
    by_cases hk : k = key
    · simp only [hk, if_true]
      exact .some (h rfl _)
    · simp only [hk, if_false]
      exact SameBy.refl hrefl l k
  · have hkeys' : ¬key' = key := fun e => hkeys e.symm
    simp only [hkeys, hkeys', if_false]
    by_cases hk : k = key
    · simp only [hk, hkeys, if_true, if_false]
      exact .some (hrefl _)
    · by_cases hk' : k = key'
      · simp only [hk', hkeys', if_true, if_false]
        exact .some (hrefl _)
      · simp only [hk, hk', if_false]
        exact SameBy.refl hrefl l k

/-- An update that is made only on a condition. -/
def updateIf (b : Bool) (l : Ledger κ ν) (key : κ) (f : Option ν → ν) : Ledger κ ν :=
  if b then l.update key f else l

theorem SameBy.updateIf (h : SameBy R l l') (b : Bool) (key : κ)
    (hf : ∀ u v, Option.Rel R u v → R (f u) (f v)) :
    SameBy R (updateIf b l key f) (updateIf b l' key f) := by
  cases b with
  | true => exact h.update key hf
  | false => exact h

theorem sameBy_updateIf_updateIf (hrefl : ∀ v, R v v) (l : Ledger κ ν) (b c : Bool)
    (h : key = key' → ∀ v, R (g (some (f v))) (f (some (g v)))) :
    SameBy R (updateIf c (updateIf b l key f) key' g) (updateIf b (updateIf c l key' g) key f) := by
  cases b with
  | false => exact SameBy.refl hrefl _
  | true =>
    cases c with
    | false => exact SameBy.refl hrefl _
    | true => exact sameBy_update_update hrefl l h

end Ledger

namespace ResolutionTally

open Ledger

/-- Lists by chain and address, in any order. -/
abbrev SameLists : Ledger String (Ledger String (List String)) → Ledger String
    (Ledger String (List String)) →
    Prop :=
  SameBy (SameBy Eq)

/-- The same tally but for the order in which it was counted. -/
structure Reordered (t t' : ResolutionTally) : Prop where
  processed : t'.processed = t.processed
  chains : t.chains.Perm t'.chains
  types : SameBy Eq t.types t'.types
  counts : SameBy Eq t.counts t'.counts
  several : SameLists t.several t'.several
  diamonds : SameBy List.Perm t.diamonds t'.diamonds
  facets : SameLists t.facets t'.facets

theorem sameBy_eq_refl {κ ν : Type} [DecidableEq κ] (l : Ledger κ ν) : SameBy Eq l l :=
  .refl (fun _ => rfl) l

theorem Reordered.refl (t : ResolutionTally) : Reordered t t :=
  ⟨rfl, .refl _, sameBy_eq_refl _, sameBy_eq_refl _, .refl sameBy_eq_refl _, .refl .refl _,
    .refl sameBy_eq_refl _⟩

theorem Reordered.of_eq {t t' : ResolutionTally} (h : t = t') : Reordered t t' :=
  h ▸ .refl t

theorem Reordered.trans {t t' t'' : ResolutionTally} (h : Reordered t t') (h' : Reordered t' t'') :
    Reordered t t'' :=
  ⟨h'.processed.trans h.processed, h.chains.trans h'.chains, h.types.trans Eq.trans h'.types,
    h.counts.trans Eq.trans h'.counts, h.several.trans (SameBy.trans Eq.trans) h'.several,
    h.diamonds.trans List.Perm.trans h'.diamonds, h.facets.trans (SameBy.trans Eq.trans) h'.facets⟩

/-- What a tally is told: that a chain is entered, or what is known of a contract. -/
inductive Change where
  | chain (name : String)
  | contract (c : Classification)

def change (t : ResolutionTally) : Change → ResolutionTally
  | .chain name => t.addChain name
  | .contract c => t.record c

/-- Contracts of distinct places, or not two contracts. -/
def Change.Apart : Change → Change → Prop
  | .contract c, .contract d => (c.chainId, c.address) ≠ (d.chainId, d.address)
  | _, _ => True

theorem Change.Apart.symm {a b : Change} (h : a.Apart b) : b.Apart a := by
  cases a with
  | chain _ => cases b <;> exact trivial
  | contract c =>
    cases b with
    | chain _ => exact trivial
    | contract d => exact Ne.symm h

/-- A contract changes each ledger under one key or not at all. -/
theorem record_eq (t : ResolutionTally) (c : Classification) : t.record c = { t with
    processed := t.processed + 1
    types := updateIf (!c.isDiamond) t.types c.label fun n => n.getD 0 + 1
    counts := updateIf (!c.isDiamond) t.counts c.implementationCount fun n => n.getD 0 + 1
    several := updateIf (!c.isDiamond && decide (1 < c.implementationCount)) t.several (toString c.chainId)
      fun known => (known.getD {}).put c.address (c.label :: c.implementations)
    diamonds := updateIf c.isDiamond t.diamonds (toString c.chainId) fun items =>
    items.getD [] ++ [c.address]
    facets := updateIf (c.isDiamond && !c.facets.isEmpty) t.facets (toString c.chainId)
      fun known => (known.getD {}).put c.address c.facets } := by
  unfold record
  cases c.isDiamond with
  | true =>
    cases hfacets : c.facets.isEmpty <;> simp [recordDiamond, updateIf, append, putAddress, hfacets]
  | false =>
    by_cases hmany : 1 < c.implementationCount <;>
      simp [recordOther, updateIf, tally, putAddress, hmany]

section Updates

variable {u v : Option (List String)} {known known' : Option (Ledger String (List String))}

theorem count_congr (n n' : Option Nat) (h : Option.Rel Eq n n') : n.getD 0 + 1 = n'.getD 0 + 1 := by
  cases h with
  | none => rfl
  | some h => rw [h]

theorem append_congr (item : String) (h : Option.Rel List.Perm u v) :
    (u.getD [] ++ [item]).Perm (v.getD [] ++ [item]) := by
  cases h with
  | none => exact .refl _
  | some h => exact h.append_right _

theorem append_comm (items : List String) (a b : String) :
    (items ++ [a] ++ [b]).Perm (items ++ [b] ++ [a]) := by
  rw [List.append_assoc, List.append_assoc]
  exact (List.Perm.swap b a []).append_left items

theorem put_congr (address : String) (items : List String) (h : Option.Rel (SameBy Eq) known known') :
    SameBy Eq ((known.getD {}).put address items) ((known'.getD {}).put address items) := by
  cases h with
  | none => exact sameBy_eq_refl _
  | some h => exact h.update address fun _ _ _ => rfl

theorem put_comm {address address' : String} (h : address ≠ address') (items items' : List String)
    (known : Ledger String (List String)) :
    SameBy Eq ((known.put address items).put address' items')
    ((known.put address' items').put address items) :=
  sameBy_update_update (fun _ => rfl) known fun heq => absurd heq h

end Updates

theorem Reordered.record {t t' : ResolutionTally} (h : Reordered t t') (c : Classification) :
    Reordered (t.record c) (t'.record c) := by
  rw [record_eq, record_eq]
  exact ⟨congrArg (· + 1) h.processed, h.chains, h.types.updateIf _ _ count_congr,
    h.counts.updateIf _ _ count_congr, h.several.updateIf _ _ fun _ _ => put_congr _ _,
    h.diamonds.updateIf _ _ fun _ _ => append_congr _, h.facets.updateIf _ _ fun _ _ => put_congr _ _⟩

theorem record_record (t : ResolutionTally) {c d : Classification}
    (h : (c.chainId, c.address) ≠ (d.chainId, d.address)) :
    Reordered ((t.record c).record d) ((t.record d).record c) := by
  have haddress : toString c.chainId = toString d.chainId → c.address ≠ d.address :=
    fun hchain haddress => h (Prod.ext (Text.toString_int_inj hchain) haddress)
  simp only [record_eq]
  exact ⟨rfl, .refl _, sameBy_updateIf_updateIf (fun _ => rfl) _ _ _ fun _ _ => rfl,
    sameBy_updateIf_updateIf (fun _ => rfl) _ _ _ fun _ _ => rfl,
    sameBy_updateIf_updateIf sameBy_eq_refl _ _ _ fun hchain _ => put_comm (haddress hchain) _ _ _,
    sameBy_updateIf_updateIf .refl _ _ _ fun _ _ => append_comm _ _ _,
    sameBy_updateIf_updateIf sameBy_eq_refl _ _ _ fun hchain _ => put_comm (haddress hchain) _ _ _⟩

theorem addChain_record (t : ResolutionTally) (name : String) (c : Classification) :
    (t.addChain name).record c = (t.record c).addChain name := by
  by_cases h : name ∈ t.chains
  · rw [addChain_of_mem h, addChain_of_mem (t.chains_record c ▸ h)]
  · rw [addChain_of_not_mem h, addChain_of_not_mem (t.chains_record c ▸ h)]
    simp only [record_eq]

theorem Reordered.addChain {t t' : ResolutionTally} (h : Reordered t t') (name : String) :
    Reordered (t.addChain name) (t'.addChain name) := by
  have hmem : name ∈ t'.chains ↔ name ∈ t.chains := h.chains.mem_iff.symm
  by_cases hname : name ∈ t.chains
  · rw [addChain_of_mem hname, addChain_of_mem (hmem.2 hname)]
    exact h
  · rw [addChain_of_not_mem hname, addChain_of_not_mem fun h' => hname (hmem.1 h')]
    exact { h with chains := h.chains.append_right _ }

/-- The order in which two new chains are noted shows in the list alone. -/
theorem addChain_addChain (t : ResolutionTally) (name name' : String) :
    Reordered ((t.addChain name).addChain name') ((t.addChain name').addChain name) := by
  by_cases h : name ∈ t.chains
  · rw [addChain_of_mem h, addChain_of_mem (mem_chains_addChain.2 (.inl h))]
    exact .refl _
  by_cases h' : name' ∈ t.chains
  · rw [addChain_of_mem h', addChain_of_mem (mem_chains_addChain.2 (.inl h'))]
    exact .refl _
  by_cases hsame : name = name'
  · rw [hsame]
    exact .refl _
  have hnew : name' ∉ (t.addChain name).chains := fun hmem =>
    (mem_chains_addChain.1 hmem).elim h' fun heq => hsame heq.symm
  have hnew' : name ∉ (t.addChain name').chains := fun hmem =>
    (mem_chains_addChain.1 hmem).elim h hsame
  rw [addChain_of_not_mem hnew, addChain_of_not_mem hnew', addChain_of_not_mem h, addChain_of_not_mem h']
  exact { Reordered.refl t with chains := append_comm _ _ _ }

theorem Reordered.change {t t' : ResolutionTally} (h : Reordered t t') (a : Change) :
    Reordered (t.change a) (t'.change a) := by
  cases a with
  | chain name => exact h.addChain name
  | contract c => exact h.record c

theorem change_change (t : ResolutionTally) {a b : Change} (h : a.Apart b) :
    Reordered ((t.change a).change b) ((t.change b).change a) := by
  cases a with
  | chain name =>
    cases b with
    | chain name' => exact t.addChain_addChain name name'
    | contract d => exact .of_eq (t.addChain_record name d)
  | contract c =>
    cases b with
    | chain name => exact .of_eq (t.addChain_record name c).symm
    | contract d => exact t.record_record h

theorem Reordered.changes {t t' : ResolutionTally} (h : Reordered t t') (changes : List Change) :
    Reordered (changes.foldl ResolutionTally.change t) (changes.foldl ResolutionTally.change t') := by
  induction changes generalizing t t' with
  | nil => exact h
  | cons a rest ih => exact ih (h.change a)

/-- Changes of distinct places may come in any order. -/
theorem reordered_of_perm {changes changes' : List Change} (hperm : changes.Perm changes')
    (hapart : changes.Pairwise Change.Apart) (t : ResolutionTally) :
    Reordered (changes.foldl change t) (changes'.foldl change t) := by
  induction hperm generalizing t with
  | nil => exact .refl t
  | cons a _ ih => exact ih (List.pairwise_cons.1 hapart).2 (t.change a)
  | swap a b rest =>
    have h : b.Apart a := (List.pairwise_cons.1 hapart).1 a List.mem_cons_self
    exact (t.change_change h).changes rest
  | trans hfirst _ ih ih' =>
    have hapart' := (hfirst.pairwise_iff fun h => h.symm).1 hapart
    exact (ih hapart t).trans (ih' hapart' t)

end ResolutionTally

end ProxyCensus
