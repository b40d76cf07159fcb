import Mathlib.Algebra.Ring.Nat
import Mathlib.Data.List.Nodup
import ProxyCensus.Tally.Ledger

/-!
# Entries of ledgers

Where the entries of a ledger come from. Main statements: an update adds no entry but that of its
key, counting keys raises the count of a key by how often it is counted, in whatever order, and a list
under a key holds what it held before and what was added.
-/

namespace ProxyCensus.Ledger

variable {κ ν : Type} [DecidableEq κ]

theorem mem_updateEntries {key : κ} {f : Option ν → ν} {es : List (κ × ν)} {e : κ × ν}
    (h : e ∈ updateEntries key f es) :
    e ∈ es ∨ e = (key, f none) ∨ ∃ v, (key, v) ∈ es ∧ e = (key, f (some v)) := by
  induction es with
  | nil => exact .inr (.inl (List.mem_singleton.1 h))
  | cons entry rest ih =>
    obtain ⟨k, v⟩ := entry
    unfold updateEntries at h
    split at h
    · rename_i hk
      subst hk
      rcases List.mem_cons.1 h with rfl | h
      · exact .inr (.inr ⟨v, List.mem_cons_self, rfl⟩)
      · exact .inl (List.mem_cons_of_mem _ h)
    · rcases List.mem_cons.1 h with rfl | h
      · exact .inl List.mem_cons_self
      · rcases ih h with h | h | ⟨w, hw, h⟩
        · exact .inl (List.mem_cons_of_mem _ h)
        · exact .inr (.inl h)
        · exact .inr (.inr ⟨w, List.mem_cons_of_mem _ hw, h⟩)

theorem forall_update {l : Ledger κ ν} {key : κ} {f : Option ν → ν} {P : κ × ν → Prop}
    (h : ∀ e ∈ l.entries, P e) (hnone : P (key, f none))
    (hsome : ∀ v, P (key, v) → P (key, f (some v))) : ∀ e ∈ (l.update key f).entries, P e := by
  intro e he
  rcases mem_updateEntries he with he | rfl | ⟨v, hv, rfl⟩
  · exact h e he
  · exact hnone
  · exact hsome v (h _ hv)

theorem tally_le {l : Ledger κ Nat} (bound : κ → Nat) (h : ∀ e ∈ l.entries, e.2 ≤ bound e.1)
    (key : κ) : ∀ e ∈ (l.tally key).entries, e.2 ≤ bound e.1 + if key = e.1 then 1 else 0 := by
  intro e he
  rcases mem_updateEntries he with he | rfl | ⟨v, hv, rfl⟩
  · exact Nat.le_trans (h e he) (Nat.le_add_right _ _)
  · simp
  · have := h _ hv
    simpa using this

/-- Counting some keys raises the count of each by how often it is among them. -/
theorem foldl_tally_le (keys : List κ) :
    ∀ (l : Ledger κ Nat) (bound : κ → Nat), (∀ e ∈ l.entries, e.2 ≤ bound e.1) →
      ∀ e ∈ (keys.foldl tally l).entries, e.2 ≤ bound e.1 + keys.count e.1 := by
  induction keys with
  | nil =>
    intro l bound h e he
    simpa using h e he
  | cons key rest ih =>
    intro l bound h e he
    have := ih (l.tally key) (fun k => bound k + if key = k then 1 else 0) (tally_le bound h key) e he
    rw [List.count_cons]
    by_cases hk : key = e.1
    · simp only [hk, if_true, beq_self_eq_true] at this ⊢
      omega
    · simp only [hk, if_false, beq_iff_eq] at this ⊢
      omega

/-- Counting distinct keys raises no count by more than one. -/
theorem foldl_tally_le_succ {keys : List κ} (hkeys : keys.Nodup) {l : Ledger κ Nat} {n : Nat}
    (h : ∀ e ∈ l.entries, e.2 ≤ n) : ∀ e ∈ (keys.foldl tally l).entries, e.2 ≤ n + 1 := by
  intro e he
  have := foldl_tally_le keys l (fun _ => n) h e he
  have hcount : keys.count e.1 ≤ 1 := List.nodup_iff_count.1 hkeys e.1
  omega

/-- The count of a key, also of one that was never counted. -/
def count (l : Ledger κ Nat) (key : κ) : Nat :=
  (l.get? key).getD 0

def items {α : Type} (l : Ledger κ (List α)) (key : κ) : List α :=
  (l.get? key).getD []

theorem count_tally (l : Ledger κ Nat) (key k : κ) :
    (l.tally key).count k = l.count k + if key = k then 1 else 0 := by
  unfold count tally
  rw [get?_update]
  by_cases h : k = key
  · subst h
    simp
  · have h' : ¬key = k := fun e => h e.symm
    simp [h, h']

theorem items_append {α : Type} (l : Ledger κ (List α)) (key k : κ) (a : α) :
    (l.append key a).items k = l.items k ++ if key = k then [a] else [] := by
  unfold items append
  rw [get?_update]
  by_cases h : k = key
  · subst h
    simp
  · have h' : ¬key = k := fun e => h e.symm
    simp [h, h']

/-- An update that makes the entry of its key heavier by `d` makes all entries together heavier by
`d`. -/
theorem sum_map_updateEntries (weight : κ × ν → Nat) {key : κ} {f : Option ν → ν} {d : Nat}
    {es : List (κ × ν)} (hnone : weight (key, f none) = d)
    (hsome : ∀ v, (key, v) ∈ es → weight (key, f (some v)) = weight (key, v) + d) :
    ((updateEntries key f es).map weight).sum = (es.map weight).sum + d := by
  induction es with
  | nil => simp [updateEntries, hnone]
  | cons e rest ih =>
    obtain ⟨k, v⟩ := e
    by_cases hk : k = key
    · subst hk
      have := hsome v List.mem_cons_self
      simp only [updateEntries, if_true, List.map_cons, List.sum_cons]
      omega
    · have := ih fun w hw => hsome w (List.mem_cons_of_mem _ hw)
      simp only [updateEntries, hk, if_false, List.map_cons, List.sum_cons]
      omega

theorem sum_values_tally (l : Ledger κ Nat) (key : κ) :
    (l.tally key).values.sum = l.values.sum + 1 :=
  sum_map_updateEntries (·.2) rfl fun _ _ => rfl

theorem get?_of_mem {l : Ledger κ ν} (h : l.keys.Nodup) {e : κ × ν} (he : e ∈ l.entries) :
    l.get? e.1 = some e.2 := by
  obtain ⟨es⟩ := l
  induction es with
  | nil => cases he
  | cons first rest ih =>
    obtain ⟨hfirst, hrest⟩ := List.nodup_cons.1 (List.map_cons ▸ h : (first.1 :: rest.map (·.1)).Nodup)
    rcases List.mem_cons.1 he with rfl | he
    · simp [get?]
    · have hne : ¬first.1 = e.1 := fun heq => hfirst (heq ▸ List.mem_map_of_mem he)
      have hget := ih hrest he
      simp only [get?] at hget ⊢
      rwa [List.find?_cons_of_neg (by simpa using hne)]

theorem mem_of_get? {l : Ledger κ ν} {key : κ} {v : ν} (h : l.get? key = some v) :
    (key, v) ∈ l.entries := by
  obtain ⟨e, he, rfl⟩ := Option.map_eq_some_iff.1 h
  have hkey : e.1 = key := by simpa using List.find?_some he
  exact hkey ▸ List.mem_of_find?_eq_some he

/-- Ledgers that hold the same under every key have the same entries, perhaps in another order. -/
theorem entries_perm {l l' : Ledger κ ν} (h : l.keys.Nodup) (h' : l'.keys.Nodup)
    (hget : ∀ key, l.get? key = l'.get? key) : l.entries.Perm l'.entries := by
  have hentries : l.entries.Nodup := List.Nodup.of_map _ h
  have hentries' : l'.entries.Nodup := List.Nodup.of_map _ h'
  refine (List.perm_ext_iff_of_nodup hentries hentries').2 fun e => ⟨fun he => ?_, fun he => ?_⟩
  · exact mem_of_get? ((hget e.1).symm.trans (get?_of_mem h he))
  · exact mem_of_get? ((hget e.1).trans (get?_of_mem h' he))

/-- Counting some keys adds to the count of each how often it is among them. -/
theorem get?_foldl_tally (keys : List κ) (k : κ) : ∀ l : Ledger κ Nat, (keys.foldl tally l).get? k =
    if k ∈ keys then some (l.count k + keys.count k) else l.get? k := by
  induction keys with
  | nil => exact fun l => rfl
  | cons key rest ih =>
    intro l
    rw [List.foldl_cons, ih, count_tally, List.count_cons]
    by_cases hk : k = key
    · subst hk
      by_cases hrest : k ∈ rest
      · simp [hrest, Nat.add_comm, Nat.add_assoc]
      · simp [hrest, List.count_eq_zero_of_not_mem hrest, tally, count]
    · have hk' : ¬key = k := fun e => hk e.symm
      simp [hk, hk', tally]

omit [DecidableEq κ] in
theorem nodup_keys_empty : (empty : Ledger κ ν).keys.Nodup :=
  List.nodup_nil

theorem nodup_keys_foldl_tally (keys : List κ) : ∀ {l : Ledger κ Nat}, l.keys.Nodup →
    (keys.foldl tally l).keys.Nodup := by
  induction keys with
  | nil => exact id
  | cons key rest ih => exact fun h => ih (nodup_keys_update h _ _)

/-- Keys may be counted in any order. -/
theorem entries_foldl_tally_perm {keys keys' : List κ} (h : keys.Perm keys') :
    (keys.foldl tally empty).entries.Perm (keys'.foldl tally empty).entries := by
  refine entries_perm (nodup_keys_foldl_tally keys nodup_keys_empty)
    (nodup_keys_foldl_tally keys' nodup_keys_empty) fun key => ?_
  simp only [get?_foldl_tally, h.mem_iff, h.count_eq]

theorem mem_keys_of_items {α : Type} {l : Ledger κ (List α)} {key : κ} (h : l.items key ≠ []) :
    key ∈ l.keys := by
  cases hget : l.get? key with
  | none => exact absurd (by rw [items, hget]; rfl) h
  | some items => exact List.mem_map_of_mem (mem_of_get? hget)

end ProxyCensus.Ledger
