/-!
# Ledgers

Values under distinct keys, listed in the order in which the keys first came. Main statements: an
update touches the value of its own key alone, and keeps the order of the keys.
-/

namespace ProxyCensus

/-- Values under keys in the order in which the keys first came. -/
structure Ledger (κ ν : Type) where
  entries : List (κ × ν) := []

namespace Ledger

variable {κ ν : Type} [DecidableEq κ]

def empty : Ledger κ ν := {}

/-- The keys in the order in which they first came. -/
def keys (l : Ledger κ ν) : List κ :=
  l.entries.map (·.1)

def values (l : Ledger κ ν) : List ν :=
  l.entries.map (·.2)

def get? (l : Ledger κ ν) (key : κ) : Option ν :=
  (l.entries.find? (·.1 = key)).map (·.2)

/-- Changes the value under a key in its place; a key without a value is added at the end. -/
def updateEntries (key : κ) (f : Option ν → ν) : List (κ × ν) → List (κ × ν)
  | [] => [(key, f none)]
  | (k, v) :: rest =>
    if k = key then (k, f (some v)) :: rest else (k, v) :: updateEntries key f rest

/-- Replaces the value under a key by a function of what was there. -/
def update (l : Ledger κ ν) (key : κ) (f : Option ν → ν) : Ledger κ ν :=
  ⟨updateEntries key f l.entries⟩

def put (l : Ledger κ ν) (key : κ) (v : ν) : Ledger κ ν :=
  l.update key fun _ => v

def tally (l : Ledger κ Nat) (key : κ) : Ledger κ Nat :=
  l.update key fun n => n.getD 0 + 1

def append {α : Type} (l : Ledger κ (List α)) (key : κ) (a : α) : Ledger κ (List α) :=
  l.update key fun items => items.getD [] ++ [a]

theorem get?_updateEntries (key k : κ) (f : Option ν → ν) (es : List (κ × ν)) :
    get? ⟨updateEntries key f es⟩ k =
      if k = key then some (f (get? ⟨es⟩ key)) else get? ⟨es⟩ k := by
  induction es with
  | nil => by_cases h : key = k <;> simp [updateEntries, get?, h, eq_comm]
  | cons e rest ih =>
    obtain ⟨k', v⟩ := e
    by_cases h' : k' = key
    · subst h'
      by_cases h : k = k'
      · subst h
        simp [updateEntries, get?]
      · have h₂ : ¬k' = k := fun e => h e.symm
        simp [updateEntries, get?, h, h₂]
    · by_cases h : k' = k
      · subst h
        simp [updateEntries, get?, h']
      · have ih' := ih
        simp only [get?] at ih' ⊢
        simp only [updateEntries, h', if_false, List.find?_cons, h, decide_false]
        simpa using ih'

/-- An update sets the value of its key and of no other. -/
@[simp] theorem get?_update (l : Ledger κ ν) (key k : κ) (f : Option ν → ν) :
    (l.update key f).get? k = if k = key then some (f (l.get? key)) else l.get? k :=
  get?_updateEntries key k f l.entries

theorem keys_updateEntries (key : κ) (f : Option ν → ν) (es : List (κ × ν)) :
    (updateEntries key f es).map (·.1) =
      if key ∈ es.map (·.1) then es.map (·.1) else es.map (·.1) ++ [key] := by
  induction es with
  | nil => simp [updateEntries]
  | cons e rest ih =>
    obtain ⟨k, v⟩ := e
    by_cases h : k = key
    · subst h
      simp [updateEntries]
    · have h' : ¬key = k := fun e => h e.symm
      simp only [updateEntries, h, if_false, List.map_cons, ih, List.mem_cons, h', false_or]
      split <;> simp

/-- An update keeps the keys in their order and adds a new one at the end. -/
theorem keys_update (l : Ledger κ ν) (key : κ) (f : Option ν → ν) :
    (l.update key f).keys = if key ∈ l.keys then l.keys else l.keys ++ [key] :=
  keys_updateEntries key f l.entries

theorem nodup_keys_update {l : Ledger κ ν} (h : l.keys.Nodup) (key : κ) (f : Option ν → ν) :
    (l.update key f).keys.Nodup := by
  rw [keys_update]
  split
  · exact h
  · rename_i hk
    rw [List.nodup_append]
    refine ⟨h, by simp, ?_⟩
    intro a ha b hb e
    simp only [List.mem_singleton] at hb
    exact hk (hb ▸ e ▸ ha)

end Ledger

end ProxyCensus
