import Mathlib.Data.List.Nodup
import ProxyCensus.Proofs.Tally.Ledger
import ProxyCensus.Proofs.Text.Integer
import ProxyCensus.Tally.Resolution

/-!
# The balance of a resolution

A contract that is counted changes the registry of diamonds and their facets, or the two histograms
and the list of the contracts with several implementations. Main statement: whatever contracts are
counted, in whatever order, the registry and either histogram add up to all of them, and the lists
by address hold nothing that the registry or the histograms do not account for.
-/

namespace ProxyCensus

namespace Ledger

variable {κ ν : Type} [DecidableEq κ]

theorem sum_lengths_append {α : Type} (l : Ledger κ (List α)) (key : κ) (a : α) :
    ((l.append key a).values.map List.length).sum = (l.values.map List.length).sum + 1 := by
  simp only [values, List.map_map]
  exact sum_map_updateEntries (List.length ∘ (·.2)) rfl fun v _ => by simp

theorem mem_put {l : Ledger κ ν} {key : κ} {v : ν} {e : κ × ν} (h : e ∈ (l.put key v).entries) :
    e ∈ l.entries ∨ e = (key, v) := by
  rcases mem_updateEntries h with h | h | ⟨-, -, h⟩
  · exact .inl h
  · exact .inr h
  · exact .inr h

theorem length_put {l : Ledger κ ν} {key : κ} (hnew : key ∉ l.keys) (v : ν) :
    (l.put key v).entries.length = l.entries.length + 1 := by
  have hkeys := congrArg List.length (keys_update l key fun _ => v)
  rw [if_neg hnew] at hkeys
  simpa [keys, put] using hkeys

end Ledger

namespace ResolutionTally

open Ledger

/-- A tally that has counted the contracts `cs` in their order, and was told of chains in between. -/
inductive Recorded : List Classification → ResolutionTally → Prop where
  | empty : Recorded [] {}
  | chain {cs : List Classification} {t : ResolutionTally} (name : String) (h : Recorded cs t) :
    Recorded cs (t.addChain name)
  | contract {cs : List Classification} {t : ResolutionTally} (c : Classification)
    (h : Recorded cs t) : Recorded (cs ++ [c]) (t.record c)

/-- The lists under chains and addresses, each behind its chain and its address. -/
def listed (l : Ledger String (Ledger String (List String))) :
    List (String × String × List String) :=
  l.entries.flatMap fun chain => chain.2.entries.map (chain.1, ·)

theorem mem_listed {l : Ledger String (Ledger String (List String))}
    {x : String × String × List String} :
    x ∈ listed l ↔ ∃ known, (x.1, known) ∈ l.entries ∧ x.2 ∈ known.entries := by
  obtain ⟨chain, e⟩ := x
  simp [listed]

theorem length_listed (l : Ledger String (Ledger String (List String))) :
    (listed l).length = (l.entries.map (·.2.entries.length)).sum := by
  simp [listed, List.length_flatMap]

theorem mem_putAddress {l : Ledger String (Ledger String (List String))} {chain address : String}
    {items : List String} {x : String × String × List String}
    (h : x ∈ listed (putAddress l chain address items)) :
    x ∈ listed l ∨ x = (chain, address, items) := by
  obtain ⟨name, e⟩ := x
  obtain ⟨known, hknown, he⟩ := mem_listed.1 h
  rcases mem_updateEntries hknown with hknown | hknown | ⟨before, hbefore, hknown⟩
  · exact .inl (mem_listed.2 ⟨known, hknown, he⟩)
  · obtain ⟨rfl, rfl⟩ := Prod.mk.inj hknown
    have he : e = (address, items) := by simpa using mem_put he
    exact .inr (he ▸ rfl)
  · obtain ⟨rfl, rfl⟩ := Prod.mk.inj hknown
    rcases mem_put he with he | he
    · exact .inl (mem_listed.2 ⟨before, hbefore, he⟩)
    · exact .inr (he ▸ rfl)

theorem length_putAddress {l : Ledger String (Ledger String (List String))} {chain address : String}
    (hnew : ∀ x ∈ listed l, x.1 = chain → x.2.1 ≠ address) (items : List String) :
    (listed (putAddress l chain address items)).length = (listed l).length + 1 := by
  rw [length_listed, length_listed]
  refine sum_map_updateEntries
    (fun e : String × Ledger String (List String) => e.2.entries.length) rfl fun known hknown => ?_
  refine length_put (fun hkey => ?_) items
  obtain ⟨e, he, hname⟩ := List.mem_map.1 hkey
  exact hnew (chain, e) (mem_listed.2 ⟨known, hknown, he⟩) rfl hname

theorem record_of_diamond {c : Classification} (h : c.isDiamond = true) (t : ResolutionTally) :
    t.record c = t.recordDiamond c :=
  if_pos h

theorem record_of_other {c : Classification} (h : c.isDiamond = false) (t : ResolutionTally) :
    t.record c = t.recordOther c :=
  if_neg (by simp [h])

@[simp]
theorem processed_addChain (t : ResolutionTally) (name : String) :
    (t.addChain name).processed = t.processed := by
  obtain ⟨chains, heq⟩ := t.addChain_eq name
  rw [heq]

@[simp]
theorem processed_record (t : ResolutionTally) (c : Classification) :
    (t.record c).processed = t.processed + 1 := by
  cases hd : c.isDiamond with
  | true => rw [record_of_diamond hd]; rfl
  | false => rw [record_of_other hd]; rfl

/-- The number of contracts that a histogram over numbers holds under two and more. -/
def overOne (l : Ledger Nat Nat) : Nat :=
  (l.entries.map fun e => if 2 ≤ e.1 then e.2 else 0).sum

theorem overOne_tally (l : Ledger Nat Nat) (n : Nat) :
    overOne (l.tally n) = overOne l + if 2 ≤ n then 1 else 0 := by
  refine sum_map_updateEntries (fun e : Nat × Nat => if 2 ≤ e.1 then e.2 else 0) rfl fun v _ => ?_
  by_cases hn : 2 ≤ n <;> simp [hn]

namespace Recorded

variable {cs : List Classification} {t : ResolutionTally}

/-- Induction on what a tally has counted, by whether the next contract is a diamond. Of the chains that it
was told of in between nothing is known but that they may be others. -/
@[elab_as_elim]
theorem byKind {motive : ∀ (cs : List Classification) (t : ResolutionTally), Recorded cs t → Prop}
    (empty : motive [] {} .empty)
    (chain : ∀ {cs : List Classification} {t : ResolutionTally} (chains : List String)
      (h : Recorded cs t) (h' : Recorded cs { t with chains }), motive cs t h → motive _ _ h')
    (diamond : ∀ {cs : List Classification} {t : ResolutionTally} (c : Classification)
      (h : Recorded cs t) (h' : Recorded (cs ++ [c]) (t.recordDiamond c)),
      c.isDiamond = true → motive cs t h → motive _ _ h')
    (other : ∀ {cs : List Classification} {t : ResolutionTally} (c : Classification)
      (h : Recorded cs t) (h' : Recorded (cs ++ [c]) (t.recordOther c)),
      c.isDiamond = false → motive cs t h → motive _ _ h')
    {cs : List Classification} {t : ResolutionTally} (h : Recorded cs t) : motive cs t h := by
  -- The tally cannot be rewritten in place, where the proof that it has counted contracts names it.
  have follow : ∀ {cs : List Classification} {t u : ResolutionTally} (h : Recorded cs t), t = u →
      (∀ h' : Recorded cs u, motive cs u h') → motive cs t h := by
    rintro cs t _ h rfl hu
    exact hu h
  induction h with
  | empty => exact empty
  | @chain cs t name h ih =>
    obtain ⟨chains, heq⟩ := t.addChain_eq name
    exact follow (h.chain name) heq fun h' => chain chains h h' ih
  | @contract cs t c h ih =>
    cases hd : c.isDiamond with
    | true => exact follow (h.contract c) (record_of_diamond hd t) fun h' => diamond c h h' hd ih
    | false => exact follow (h.contract c) (record_of_other hd t) fun h' => other c h h' hd ih

theorem processed_eq (h : Recorded cs t) : t.processed = cs.length := by
  induction h with
  | empty => rfl
  | chain name _ ih => rw [processed_addChain, ih]
  | contract c _ ih => rw [processed_record, ih, List.length_append, List.length_singleton]

/-- The registry and the histogram of implementations share the contracts out between them. -/
theorem processed_eq_add (h : Recorded cs t) :
    t.processed = (t.diamonds.values.map List.length).sum + t.counts.values.sum := by
  induction h using byKind with
  | empty => rfl
  | chain _ _ _ ih => exact ih
  | diamond c _ _ _ ih =>
    simp only [recordDiamond, sum_lengths_append, ih]
    omega
  | other c _ _ _ ih =>
    simp only [recordOther, sum_values_tally, ih]
    omega

theorem sum_types (h : Recorded cs t) : t.types.values.sum = t.counts.values.sum := by
  induction h using byKind with
  | empty => rfl
  | chain _ _ _ ih => exact ih
  | diamond c _ _ _ ih => exact ih
  | other c _ _ _ ih => simp only [recordOther, sum_values_tally, ih]

theorem earlier {P : Classification → Prop} (h : ∃ c ∈ cs, P c) (last : Classification) :
    ∃ c ∈ cs ++ [last], P c :=
  h.imp fun _ hc => ⟨List.mem_append_left _ hc.1, hc.2⟩

theorem of_mem_diamonds (h : Recorded cs t) : ∀ {chain address : String},
    address ∈ t.diamonds.items chain →
      ∃ c ∈ cs, c.isDiamond = true ∧ toString c.chainId = chain ∧ c.address = address := by
  induction h using byKind with
  | empty =>
    intro _ _ hmem
    cases hmem
  | chain _ _ _ ih => exact ih
  | diamond c _ _ hd ih =>
    intro chain address hmem
    simp only [recordDiamond, items_append, List.mem_append] at hmem
    rcases hmem with hmem | hmem
    · exact earlier (ih hmem) c
    · split at hmem
      · rename_i hchain
        exact ⟨c, by simp, hd, hchain, (List.mem_singleton.1 hmem).symm⟩
      · cases hmem
  | other c _ _ _ ih => exact fun hmem => earlier (ih hmem) c

/-- Facets are listed only of registered diamonds that have some. -/
theorem registered_of_facets (h : Recorded cs t) :
    ∀ x ∈ listed t.facets, x.2.1 ∈ t.diamonds.items x.1 ∧ x.2.2 ≠ [] := by
  induction h using byKind with
  | empty =>
    intro x hx
    cases hx
  | chain _ _ _ ih => exact ih
  | @diamond _ t c _ _ _ ih =>
    intro x hx
    have hkept : x ∈ listed t.facets →
        x.2.1 ∈ (t.recordDiamond c).diamonds.items x.1 ∧ x.2.2 ≠ [] := by
      intro hx
      refine ⟨?_, (ih x hx).2⟩
      simp only [recordDiamond, items_append]
      exact List.mem_append_left _ (ih x hx).1
    simp only [recordDiamond] at hx
    split at hx
    · exact hkept hx
    · rename_i hfacets
      rcases mem_putAddress hx with hx | rfl
      · exact hkept hx
      · exact ⟨by simp [recordDiamond, items_append], by simpa using hfacets⟩
  | other c _ _ _ ih => exact ih

/-- What is listed with several implementations is a contract with several implementations. -/
theorem of_mem_several (h : Recorded cs t) : ∀ {x}, x ∈ listed t.several →
    ∃ c ∈ cs, c.isDiamond = false ∧ 2 ≤ c.implementations.length ∧
      x = (toString c.chainId, c.address, c.label :: c.implementations) := by
  induction h using byKind with
  | empty =>
    intro _ hx
    cases hx
  | chain _ _ _ ih => exact ih
  | diamond c _ _ _ ih => exact fun hx => earlier (ih hx) c
  | other c _ _ hd ih =>
    intro x hx
    simp only [recordOther] at hx
    split at hx
    · rename_i hmany
      rcases mem_putAddress hx with hx | rfl
      · exact earlier (ih hx) c
      · exact ⟨c, by simp, hd, hmany, rfl⟩
    · exact earlier (ih hx) c

/-- Of contracts in different places, each with several implementations has a list of its own. -/
theorem length_several (h : Recorded cs t)
    (hplaces : (cs.map fun c => (c.chainId, c.address)).Nodup) :
    (listed t.several).length = overOne t.counts := by
  induction h using byKind with
  | empty => rfl
  | chain _ _ _ ih => exact ih hplaces
  | diamond c _ _ _ ih =>
    rw [List.map_append] at hplaces
    exact ih hplaces.of_append_left
  | @other cs t c h _ _ ih =>
    rw [List.map_append, List.nodup_append'] at hplaces
    obtain ⟨hbefore, -, hnew⟩ := hplaces
    have ih := ih hbefore
    simp only [recordOther, overOne_tally]
    by_cases hmany : 2 ≤ c.implementationCount
    · have hfresh : ∀ x ∈ listed t.several, x.1 = toString c.chainId → x.2.1 ≠ c.address := by
        intro x hx hchain haddress
        obtain ⟨b, hb, -, -, rfl⟩ := h.of_mem_several hx
        exact hnew (List.mem_map_of_mem hb)
          (List.mem_singleton.2 (Prod.ext (Text.toString_int_inj hchain) haddress))
      rw [if_pos (Nat.lt_of_succ_le hmany), if_pos hmany, length_putAddress hfresh, ih]
    · rw [if_neg (fun h => hmany (Nat.succ_le_of_lt h)), if_neg hmany, ih]
      rfl

/-- A tally is balanced after any contracts. -/
theorem balanced (h : Recorded cs t) :
    t.processed = cs.length ∧
    t.processed = (t.diamonds.values.map List.length).sum + t.counts.values.sum ∧
    t.types.values.sum = t.counts.values.sum ∧
    (∀ x ∈ listed t.facets, x.2.1 ∈ t.diamonds.items x.1 ∧ x.2.2 ≠ []) ∧
    (∀ x ∈ listed t.several, ∃ c ∈ cs, 2 ≤ c.implementations.length ∧
      x = (toString c.chainId, c.address, c.label :: c.implementations)) ∧
    ((cs.map fun c => (c.chainId, c.address)).Nodup →
      (listed t.several).length = overOne t.counts ∧
      ∀ x ∈ listed t.several, x.2.1 ∉ t.diamonds.items x.1) := by
  refine ⟨h.processed_eq, h.processed_eq_add, h.sum_types, h.registered_of_facets, ?_, ?_⟩
  · intro x hx
    obtain ⟨c, hc, -, hmany, hx⟩ := h.of_mem_several hx
    exact ⟨c, hc, hmany, hx⟩
  · intro hplaces
    refine ⟨h.length_several hplaces, fun x hx hregistered => ?_⟩
    obtain ⟨c, hc, hother, -, rfl⟩ := h.of_mem_several hx
    obtain ⟨d, hd, hdiamond, hchain, haddress⟩ := h.of_mem_diamonds hregistered
    have hsame : d = c := List.inj_on_of_nodup_map hplaces hd hc
      (Prod.ext (Text.toString_int_inj hchain) haddress)
    rw [hsame, hother] at hdiamond
    cases hdiamond

/-- A diamond and a contract with two implementations, and on a second chain, under the address of
the latter, another diamond. -/
def onTwoChains : List Classification := [
  { chainId := 1, address := "0xd1", kind := .diamond, patterns := [.legacyUpgradeable, .diamond]
    implementations := ["0x01", "0x02"], facets := ["0x02"] },
  { chainId := 1, address := "0xc2", kind := .multiProxy
    patterns := [.eip1967, .legacyUpgradeable], implementations := ["0x03", "0x04"] },
  { chainId := 10, address := "0xc2", kind := .diamond, patterns := [.diamond, .fixed]
    implementations := ["0x05"] }]

theorem balanced_on_two_chains :
    let t := onTwoChains.foldl record (({} : ResolutionTally).addChain "1")
    Recorded onTwoChains t ∧ (onTwoChains.map fun c => (c.chainId, c.address)).Nodup ∧
      (t.diamonds.values.map List.length).sum + t.counts.values.sum = 3 ∧
      (listed t.several).length = 1 ∧ ∀ x ∈ listed t.several, x.2.1 ∉ t.diamonds.items x.1 := by
  intro t
  have h : Recorded onTwoChains t :=
    .contract _ (.contract _ (.contract _ (.chain "1" .empty)))
  have hplaces : (onTwoChains.map fun c => (c.chainId, c.address)).Nodup := by decide
  obtain ⟨hlength, hsum, -, -, -, hseveral⟩ := h.balanced
  exact ⟨h, hplaces, hsum ▸ hlength, (hseveral hplaces).1, (hseveral hplaces).2⟩

end Recorded

end ResolutionTally

end ProxyCensus
