import Mathlib.Data.List.Basic
import Mathlib.Data.List.Count
import ProxyCensus.Proofs.Tally.Balance

/-!
# Labels of combinations

The histogram of a resolution counts contracts under the label of their patterns, the names with a
comma and a blank between them. No name is empty or has a comma in it, so that a label says which
patterns it names, in which order and how often. Main statement: whatever contracts are counted, the
histogram has under the label of a list of patterns the number of the contracts with that list.
-/

namespace ProxyCensus

section Marked

variable {α β : Type} [DecidableEq β] {mark : β}

/-- What stands before the first mark, if each of the words behind begins with one. -/
theorem takeWhile_marked (word : α → List β) {first : List β} (hfirst : mark ∉ first) (l : List α) :
    (first ++ l.flatMap fun a => mark :: word a).takeWhile (· != mark) = first := by
  have hall : ∀ x ∈ first, (x != mark) = true := fun x hx =>
    bne_iff_ne.2 fun heq => hfirst (heq ▸ hx)
  rw [List.takeWhile_append_of_pos hall]
  cases l <;> simp

/-- Words without the mark that is put before each of them are read apart again. -/
theorem flatMap_marked_injective {word : α → List β} (hmark : ∀ a, mark ∉ word a)
    (hword : Function.Injective word) :
    Function.Injective fun l : List α => l.flatMap fun a => mark :: word a := by
  intro l
  induction l with
  | nil =>
    rintro (_ | ⟨b, m⟩) h
    · rfl
    · simp at h
  | cons a l ih =>
    rintro (_ | ⟨b, m⟩) h
    · simp at h
    · simp only [List.flatMap_cons, List.cons_append, List.cons.injEq, true_and] at h
      have hfirst : word a = word b := by
        rw [← takeWhile_marked word (hmark a) l, h, takeWhile_marked word (hmark b)]
      rw [hfirst, List.append_cancel_left_eq] at h
      rw [hword hfirst, ih h]

end Marked

namespace Classification

def wordOf (p : Pattern) : List Char :=
  ' ' :: p.name.toList

theorem comma_not_mem_wordOf (p : Pattern) : ',' ∉ wordOf p := by
  cases p <;> decide

theorem wordOf_injective : Function.Injective wordOf := fun _ _ h =>
  Pattern.name_injective (String.toList_inj.1 (List.cons.inj h).2)

theorem toList_labelOf_cons (p : Pattern) (rest : List Pattern) :
    ' ' :: (labelOf (p :: rest)).toList = wordOf p ++ rest.flatMap fun q => ',' :: wordOf q := by
  induction rest generalizing p with
  | nil => simp [labelOf, wordOf]
  | cons q rest ih =>
    have hlabel : labelOf (p :: q :: rest) = p.name ++ ", " ++ labelOf (q :: rest) :=
      String.intercalate_cons_cons
    rw [hlabel, List.flatMap_cons, List.cons_append, ← ih q]
    simp [wordOf]

/-- With a comma and a blank before it a label is the words of its patterns, each behind a comma. -/
theorem marked_labelOf {patterns : List Pattern} (h : patterns ≠ []) :
    ',' :: ' ' :: (labelOf patterns).toList = patterns.flatMap fun p => ',' :: wordOf p := by
  cases patterns with
  | nil => exact absurd rfl h
  | cons p rest => rw [toList_labelOf_cons, List.flatMap_cons, List.cons_append]

theorem labelOf_eq_empty_iff {patterns : List Pattern} : labelOf patterns = "" ↔ patterns = [] := by
  refine ⟨fun h => ?_, fun h => h ▸ rfl⟩
  cases patterns with
  | nil => rfl
  | cons p rest =>
    have htext := toList_labelOf_cons p rest
    rw [h] at htext
    cases p <;> simp [wordOf, Pattern.name] at htext

/-- A label says which patterns it names, in which order and how often. -/
theorem labelOf_injective : Function.Injective labelOf := by
  intro ps qs h
  by_cases hps : ps = []
  · rw [hps, eq_comm, ← labelOf_eq_empty_iff, ← h]
    exact labelOf_eq_empty_iff.2 hps
  · have hqs : qs ≠ [] := fun hqs => hps (labelOf_eq_empty_iff.1 (h.trans (labelOf_eq_empty_iff.2 hqs)))
    refine flatMap_marked_injective comma_not_mem_wordOf wordOf_injective ?_
    simp only [← marked_labelOf hps, ← marked_labelOf hqs, h]

end Classification

namespace ResolutionTally

open Classification (labelOf)

def countOf (patterns : List Pattern) (cs : List Classification) : Nat :=
  cs.countP fun c => !c.isDiamond && c.patterns == patterns

namespace Recorded

variable {cs : List Classification} {t : ResolutionTally}

/-- The histogram counts the labels of what is no diamond. -/
theorem types_eq (h : Recorded cs t) :
    t.types = ((cs.filter (!·.isDiamond)).map (·.label)).foldl Ledger.tally Ledger.empty := by
  induction h using byKind with
  | empty => rfl
  | chain _ _ _ ih => exact ih
  | diamond c _ _ hd ih => simp [recordDiamond, hd, ih]
  | other c _ _ hd ih => simp [recordOther, hd, ih]

theorem count_labels (patterns : List Pattern) (cs : List Classification) :
    ((cs.filter (!·.isDiamond)).map (·.label)).count (labelOf patterns) = countOf patterns cs := by
  have hlabel : ∀ c : Classification, (c.label == labelOf patterns) = (c.patterns == patterns) :=
    fun c => by
      rw [Bool.eq_iff_iff, beq_iff_eq, beq_iff_eq]
      exact Classification.labelOf_injective.eq_iff
  simp only [List.count, List.countP_map, List.countP_filter, Function.comp_def, hlabel, countOf]
  simp only [Bool.and_comm]

/-- Under the label of some patterns stands how many contracts have them, if there are any. -/
theorem get?_types (h : Recorded cs t) (patterns : List Pattern) :
    t.types.get? (labelOf patterns) =
      if countOf patterns cs = 0 then none else some (countOf patterns cs) := by
  rw [h.types_eq, Ledger.get?_foldl_tally, count_labels]
  by_cases hcount : countOf patterns cs = 0
  · have hmem := List.count_eq_zero.1 ((count_labels patterns cs).trans hcount)
    rw [if_neg hmem, if_pos hcount]
    rfl
  · have hmem : labelOf patterns ∈ (cs.filter (!·.isDiamond)).map (·.label) :=
      List.count_pos_iff.1 (by rw [count_labels]; omega)
    rw [if_pos hmem, if_neg hcount]
    simp [Ledger.count, Ledger.get?, Ledger.empty]

theorem nodup_keys_types (h : Recorded cs t) : t.types.keys.Nodup := by
  rw [h.types_eq]
  exact Ledger.nodup_keys_foldl_tally _ Ledger.nodup_keys_empty

/-- What the histogram counts under is the label of a contract that is no diamond. -/
theorem label_of_mem_types (h : Recorded cs t) {e : String × Nat} (he : e ∈ t.types.entries) :
    ∃ c ∈ cs, c.isDiamond = false ∧ e.1 = c.label := by
  have hget := Ledger.get?_of_mem h.nodup_keys_types he
  rw [h.types_eq, Ledger.get?_foldl_tally] at hget
  by_cases hmem : e.1 ∈ (cs.filter (!·.isDiamond)).map (·.label)
  · obtain ⟨c, hc, hname⟩ := List.mem_map.1 hmem
    obtain ⟨hc, hother⟩ := List.mem_filter.1 hc
    exact ⟨c, hc, by simpa using hother, hname.symm⟩
  · rw [if_neg hmem] at hget
    cases hget

/-- Contracts have one label only if they have the same patterns in the same order. So the
histogram counts, whatever contracts are counted, under the label of each list of patterns the
contracts with that list that are no diamonds, and there is nothing else in it. -/
theorem counts_by_patterns (h : Recorded cs t) :
    (∀ c d : Classification, c.label = d.label ↔ c.patterns = d.patterns) ∧
    (∀ patterns, t.types.get? (labelOf patterns) =
      if countOf patterns cs = 0 then none else some (countOf patterns cs)) ∧
    t.types.keys.Nodup ∧
    ∀ e ∈ t.types.entries, ∃ c ∈ cs,
      c.isDiamond = false ∧ e = (c.label, countOf c.patterns cs) := by
  refine ⟨fun c d => Classification.labelOf_injective.eq_iff, h.get?_types, h.nodup_keys_types, ?_⟩
  intro e he
  obtain ⟨c, hc, hother, hname⟩ := h.label_of_mem_types he
  have hget := Ledger.get?_of_mem h.nodup_keys_types he
  rw [hname, Classification.label, h.get?_types] at hget
  split at hget
  · cases hget
  · exact ⟨c, hc, hother, Prod.ext hname (Option.some.inj hget).symm⟩

/-- Four contracts, of which two have the same patterns, and a third has them the other way round. -/
def fourContracts : List Classification := [
  { chainId := 1, address := "0x0a", kind := .multiProxy, patterns := [.eip1967, .legacyUpgradeable] },
  { chainId := 1, address := "0x0b", kind := .multiProxy, patterns := [.legacyUpgradeable, .eip1967] },
  { chainId := 1, address := "0x0c", kind := .diamond, patterns := [.eip1967, .diamond] },
  { chainId := 10, address := "0x0d", kind := .multiProxy, patterns := [.eip1967, .legacyUpgradeable] }]

theorem counts_by_patterns_of_four :
    let t := fourContracts.foldl record (({} : ResolutionTally).addChain "1")
    Recorded fourContracts t ∧
      t.types.get? "EIP1967Proxy, LegacyUpgradeableProxy" = some 2 ∧
      t.types.get? "LegacyUpgradeableProxy, EIP1967Proxy" = some 1 ∧
      t.types.get? "EIP1967Proxy, DiamondProxy" = none := by
  intro t
  have h : Recorded fourContracts t :=
    .contract _ (.contract _ (.contract _ (.contract _ (.chain "1" .empty))))
  obtain ⟨-, hcounts, -, -⟩ := h.counts_by_patterns
  exact ⟨h, hcounts [.eip1967, .legacyUpgradeable], hcounts [.legacyUpgradeable, .eip1967],
    hcounts [.eip1967, .diamond]⟩

end Recorded

end ResolutionTally

end ProxyCensus
