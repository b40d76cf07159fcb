import Mathlib.Algebra.Ring.Nat
import ProxyCensus.Json.Document

/-!
# Documents that can be written

Which documents have a text: those whose integers have at most 64 bits, whose texts hold no half of a
surrogate pair, and whose lists and tables do not stand too deep. Main statement: such a document is
rendered.
-/

namespace ProxyCensus

/-- An integer of at most 64 bits. -/
def IsWord (n : Int) : Prop :=
  -0x8000000000000000 ≤ n ∧ n < 0x10000000000000000

theorem isWord_of_lt {n : Nat} (h : n < 2 ^ 64) : IsWord n :=
  ⟨by omega, by omega⟩

/-- A key that can be written. -/
inductive Key.Writable : Key → Prop
  | int {n : Int} (h : IsWord n) : Writable (.int n)
  | text {s : String} (h : Text.hasHalf s = false) : Writable (.text s)

namespace Document

/-- A document that can be written at a level. -/
inductive Writable : Nat → Document → Prop
  | null {level : Nat} : Writable level .null
  | float {level : Nat} (x : Float) : Writable level (.float x)
  | int {level : Nat} {n : Int} (h : IsWord n) : Writable level (.int n)
  | text {level : Nat} {s : String} (h : Text.hasHalf s = false) : Writable level (.text s)
  | list {level : Nat} {items : List Document} (hlevel : mayNest level = true)
      (h : ∀ d ∈ items, Writable (level + 1) d) : Writable level (.list items)
  | table {level : Nat} {fields : List (Key × Document)} (hlevel : mayNest level = true)
      (hkeys : ∀ f ∈ fields, f.1.Writable) (h : ∀ f ∈ fields, Writable (level + 1) f.2) :
      Writable level (.table fields)

theorem wordText_of_isWord {n : Int} (h : IsWord n) : wordText n = .ok (toString n).toList :=
  if_pos h

theorem keyText_of_writable {k : Key} (h : k.Writable) : ∃ t, keyText k = .ok t := by
  cases h with
  | int h => exact ⟨_, wordText_of_isWord h⟩
  | text h => exact ⟨_, by simp only [keyText, h]; rfl⟩

theorem writeItems_of_forall {level : Nat} {items : List Document}
    (h : ∀ d ∈ items, ∃ t, write level d = .ok t) : ∃ ts, writeItems level items = .ok ts := by
  induction items with
  | nil => exact ⟨[], rfl⟩
  | cons d rest ih =>
    obtain ⟨t, ht⟩ := h d List.mem_cons_self
    obtain ⟨ts, hts⟩ := ih fun e he => h e (List.mem_cons_of_mem _ he)
    exact ⟨t :: ts, by simp only [writeItems, ht, hts]; rfl⟩

theorem writeFields_of_forall {level : Nat} {fields : List (Key × Document)}
    (hkeys : ∀ f ∈ fields, f.1.Writable) (h : ∀ f ∈ fields, ∃ t, write level f.2 = .ok t) :
    ∃ ts, writeFields level fields = .ok ts := by
  induction fields with
  | nil => exact ⟨[], rfl⟩
  | cons f rest ih =>
    obtain ⟨k, hk⟩ := keyText_of_writable (hkeys f List.mem_cons_self)
    obtain ⟨t, ht⟩ := h f List.mem_cons_self
    obtain ⟨ts, hts⟩ := ih (fun g hg => hkeys g (List.mem_cons_of_mem _ hg))
      fun g hg => h g (List.mem_cons_of_mem _ hg)
    obtain ⟨key, value⟩ := f
    exact ⟨(k, t) :: ts, by simp only [writeFields, hk, ht, hts]; rfl⟩

theorem write_of_writable {level : Nat} {d : Document} (h : Writable level d) :
    ∃ t, write level d = .ok t := by
  induction h with
  | null => exact ⟨_, rfl⟩
  | float x => exact ⟨_, rfl⟩
  | int h => exact ⟨_, wordText_of_isWord h⟩
  | text h => exact ⟨_, by simp only [write, h]; rfl⟩
  | list hlevel _ ih =>
    obtain ⟨ts, hts⟩ := writeItems_of_forall ih
    exact ⟨_, by simp only [write, hlevel, hts]; rfl⟩
  | table hlevel hkeys _ ih =>
    obtain ⟨ts, hts⟩ := writeFields_of_forall hkeys ih
    exact ⟨_, by simp only [write, hlevel, hts]; rfl⟩

theorem render_of_writable {d : Document} (h : Writable 0 d) : ∃ text, d.render = .ok text := by
  obtain ⟨t, ht⟩ := write_of_writable h
  exact ⟨String.ofList t, by rw [render, ht]; rfl⟩

theorem writable_count {level n : Nat} (h : n < 2 ^ 64) : Writable level (count n) :=
  .int (isWord_of_lt h)

theorem writable_table {level : Nat} {fields : List (Key × Document)}
    (hlevel : mayNest level = true)
    (h : ∀ f ∈ fields, f.1.Writable ∧ Writable (level + 1) f.2) : Writable level (.table fields) :=
  .table hlevel (fun f hf => (h f hf).1) fun f hf => (h f hf).2

theorem writable_table_map {β : Type} {level : Nat} {es : List β} {key : β → Key}
    {value : β → Document} (hlevel : mayNest level = true)
    (h : ∀ e ∈ es, (key e).Writable ∧ Writable (level + 1) (value e)) :
    Writable level (.table (es.map fun e => (key e, value e))) := by
  refine writable_table hlevel fun f hf => ?_
  obtain ⟨e, he, rfl⟩ := List.mem_map.1 hf
  exact h e he

theorem writable_texts {level : Nat} {items : List String} (hlevel : mayNest level = true)
    (h : ∀ s ∈ items, Text.hasHalf s = false) : Writable level (texts items) := by
  refine .list hlevel fun d hd => ?_
  obtain ⟨s, hs, rfl⟩ := List.mem_map.1 hd
  exact .text (h s hs)

end Document

end ProxyCensus
