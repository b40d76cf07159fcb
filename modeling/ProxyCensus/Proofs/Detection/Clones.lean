import Mathlib.Data.List.Basic
import ProxyCensus.Proofs.Act
import ProxyCensus.Proofs.Detection.Appended

/-!
# Clones with more code behind them

What is found in a clone when more code stands behind it. The address in a clone is the operand of one
push, whatever its bytes are; so the clone is cut into whole instructions, and what follows is read from
its first byte on. None of these instructions is part of a mark, but one of them delegates. Main
statement: next to the clone itself exactly that is found which is found in the code behind a lone
delegating instruction, at places that are later by the size of the clone less one.
-/

namespace ProxyCensus

open Evm (Instruction)

namespace Evm

def Instruction.later (k : Nat) (i : Instruction) : Instruction :=
  { i with offset := i.offset + k }

/-- Code at a later place has the same instructions at later places. -/
theorem sweepFrom_later (offset k : Nat) (code : List UInt8) :
    sweepFrom (offset + k) code = (sweepFrom offset code).map (·.later k) := by
  fun_induction sweepFrom offset code with
  | case1 => exact sweepFrom_nil _
  | case2 offset opcode rest width operand hshort =>
    have : operand.length = min width rest.length := List.length_take
    exact sweepFrom_cons_short (by omega)
  | case3 offset opcode rest width operand hwhole ih =>
    have : operand.length = min width rest.length := List.length_take
    rw [sweepFrom_cons (by omega), List.map_cons, ← ih]
    rw [show offset + k + 1 + operandLength opcode = offset + 1 + width + k by omega]
    rfl

/-- Code that consists of whole instructions with the given operations. -/
inductive Cut : List UInt8 → List UInt8 → Prop where
  | nil : Cut [] []
  | cons {opcode : UInt8} {operand code opcodes : List UInt8}
    (hwhole : operand.length = operandLength opcode) (hrest : Cut code opcodes) :
    Cut (opcode :: (operand ++ code)) (opcode :: opcodes)

theorem Cut.of_bare {opcodes : List UInt8} (h : ∀ opcode ∈ opcodes, operandLength opcode = 0) :
    Cut opcodes opcodes := by
  induction opcodes with
  | nil => exact .nil
  | cons opcode rest ih =>
    obtain ⟨hopcode, hrest⟩ := List.forall_mem_cons.1 h
    exact @Cut.cons opcode [] rest rest hopcode.symm (ih hrest)

theorem Cut.append {code more opcodes others : List UInt8} (h : Cut code opcodes)
    (hmore : Cut more others) : Cut (code ++ more) (opcodes ++ others) := by
  induction h with
  | nil => exact hmore
  | cons hwhole _ ih =>
    rw [List.cons_append, List.append_assoc, List.cons_append]
    exact .cons hwhole ih

/-- What stands behind whole instructions is read from its first byte on. -/
theorem Cut.exists_sweepFrom {code opcodes : List UInt8} (h : Cut code opcodes) (offset : Nat) :
    ∃ is : List Instruction, is.map (·.opcode) = opcodes ∧
      ∀ more, sweepFrom offset (code ++ more) = is ++ sweepFrom (offset + code.length) more := by
  induction h generalizing offset with
  | nil => exact ⟨[], rfl, fun _ => rfl⟩
  | @cons opcode operand code opcodes hwhole _ ih =>
    obtain ⟨is, his, hsweep⟩ := ih (offset + 1 + operandLength opcode)
    refine ⟨⟨offset, opcode, operand⟩ :: is, by rw [List.map_cons, his], fun more => ?_⟩
    rw [List.cons_append, List.append_assoc, sweepFrom_cons (by rw [List.length_append]; omega),
      List.take_left' hwhole, List.drop_left' hwhole, hsweep, List.cons_append, List.length_cons,
      List.length_append, hwhole]
    rw [show offset + 1 + operandLength opcode + code.length =
      offset + (operandLength opcode + code.length + 1) by omega]

end Evm

/-- A match at a place that is later by so many bytes. -/
def Match.later (k : Nat) (m : Match) : Match :=
  { m with offset := m.offset + k }

namespace Definition

theorem marks_later (d : Definition) (k : Nat) (is : List Instruction) :
    d.Marks (is.map (·.later k)) ↔ d.Marks is := by
  cases is with
  | nil => exact Iff.rfl
  | cons i rest =>
    have hnames : ((i :: rest).map (·.later k)).map (·.name) = (i :: rest).map (·.name) := by
      rw [List.map_map]
      rfl
    exact or_congr Iff.rfl (exists_congr fun s => and_congr_right fun _ => by rw [← hnames]; rfl)

theorem firstMark?_later (d : Definition) (k : Nat) (is : List Instruction) :
    d.firstMark? (is.map (·.later k)) = (d.firstMark? is).map (·.later k) := by
  induction is with
  | nil => rfl
  | cons i rest ih =>
    have hmarks := d.marks_later k (i :: rest)
    rw [List.map_cons] at hmarks ⊢
    unfold firstMark?
    by_cases h : d.Marks (i :: rest)
    · rw [if_pos h, if_pos (hmarks.2 h)]
      rfl
    · rw [if_neg h, if_neg (mt hmarks.1 h), ih]

end Definition

namespace Detection

open Catalog (builtIn row)

theorem entry_later (p : Pattern) (k : Nat) (i : Instruction) :
    entry p (i.later k) = (entry p i).later k := by
  unfold entry
  by_cases hp : p = .eip1967Beacon
  · rw [if_pos hp, if_pos hp]
    by_cases hi : i.opcode = Evm.push32
    · rw [if_pos hi, if_pos (show (i.later k).opcode = Evm.push32 from hi)]
      rfl
    · rw [if_neg hi, if_neg (show (i.later k).opcode ≠ Evm.push32 from hi)]
      rfl
  · rw [if_neg hp, if_neg hp]
    rfl

/-- An operation with which no mark of the built-in rows starts. -/
def Unmarked (opcode : UInt8) : Prop :=
  opcode ≠ Evm.push32 ∧ opcode ≠ Evm.push4 ∧ Evm.mnemonic opcode ≠ "ADDRESS"

instance : DecidablePred Unmarked := fun opcode =>
  inferInstanceAs (Decidable (opcode ≠ Evm.push32 ∧ opcode ≠ Evm.push4 ∧ _ ≠ _))

/-- Instructions with which no mark starts put off the first mark. -/
theorem firstMark?_append_of_unmarked {is : List Instruction} (h : ∀ i ∈ is, Unmarked i.opcode)
    (p : Pattern) (more : List Instruction) :
    (row p).firstMark? (is ++ more) = (row p).firstMark? more := by
  induction is with
  | nil => rfl
  | cons i rest ih =>
    obtain ⟨⟨h32, h4, hname⟩, hrest⟩ := List.forall_mem_cons.1 h
    have hmarks : ¬ (row p).Marks (i :: (rest ++ more)) := by
      rintro ((⟨hop, -⟩ | ⟨hop, -⟩) | ⟨s, hs, hprefix⟩)
      · exact h32 hop
      · exact h4 hop
      · rw [sequences_row] at hs
        split at hs
        · obtain rfl := List.mem_singleton.1 hs
          rw [List.map_cons, List.cons_prefix_cons] at hprefix
          exact hname hprefix.1.symm
        · cases hs
    rw [List.cons_append, Definition.firstMark?, if_neg hmarks]
    exact ih hrest

/-- Twenty bytes behind the operation that pushes so many are its operand, whatever they are. -/
theorem cut_around {target : List UInt8} (h : target.length = 20) {front middle back : List UInt8}
    (hbare : ∀ opcode ∈ front ++ middle ++ back, Evm.operandLength opcode = 0) (width : UInt8) :
    Evm.Cut (front ++ 0x73 :: (target ++ (middle ++ 0x60 :: ([width] ++ back))))
      (front ++ 0x73 :: (middle ++ 0x60 :: back)) := by
  simp only [List.forall_mem_append] at hbare
  obtain ⟨⟨hfront, hmiddle⟩, hback⟩ := hbare
  have hjump : Evm.Cut (0x60 :: ([width] ++ back)) (0x60 :: back) := .cons rfl (.of_bare hback)
  have htarget : Evm.Cut (0x73 :: (target ++ (middle ++ 0x60 :: ([width] ++ back))))
      (0x73 :: (middle ++ 0x60 :: back)) := .cons h ((Evm.Cut.of_bare hmiddle).append hjump)
  exact (Evm.Cut.of_bare hfront).append htarget

/-- A clone consists of whole instructions. One of them delegates, and no mark starts with any. -/
theorem exists_cut_of_shape {shape : List UInt8 × List UInt8} (hshape : shape ∈ cloneShapes)
    {target : List UInt8} (h : target.length = 20) :
    ∃ opcodes, Evm.Cut (shape.1 ++ target ++ shape.2) opcodes ∧ Evm.delegateCall ∈ opcodes ∧
      ∀ opcode ∈ opcodes, Unmarked opcode := by
  simp only [cloneShapes, List.mem_cons, List.not_mem_nil, or_false] at hshape
  rcases hshape with rfl | rfl
  · have hcut := @cut_around target h [0x36, 0x3d, 0x3d, 0x37, 0x3d, 0x3d, 0x3d, 0x36, 0x3d]
      [0x5a, 0xf4, 0x3d, 0x82, 0x80, 0x3e, 0x90, 0x3d, 0x91] [0x57, 0xfd, 0x5b, 0xf3]
      (by decide +kernel) 0x2b
    exact ⟨_, hcut, by decide, by decide +kernel⟩
  · have hcut := @cut_around target h [0x36, 0x5f, 0x5f, 0x37, 0x5f, 0x5f, 0x36, 0x5f]
      [0x5a, 0xf4, 0x3d, 0x5f, 0x5f, 0x3e, 0x5f, 0x3d, 0x91] [0x57, 0xfd, 0x5b, 0xf3]
      (by decide +kernel) 0x2a
    exact ⟨_, hcut, by decide, by decide +kernel⟩

/-- A lone delegating instruction with more code behind it is no clone, and its marks are those of the
code behind it. -/
theorem reported?_delegateCall_cons (rest : List UInt8) (p : Pattern) :
    reported? (Evm.delegateCall :: rest) p =
      if p = .fixed then none
      else ((row p).firstMark? (Evm.sweepFrom 1 rest)).map (entry p) := by
  have hsweep : Evm.sweep (Evm.delegateCall :: rest) =
      [⟨0, Evm.delegateCall, []⟩] ++ Evm.sweepFrom 1 rest :=
    Evm.sweepFrom_cons (Nat.zero_le _)
  unfold reported?
  by_cases hp : p = .fixed
  · rw [if_pos hp, if_pos hp]
    cases htarget : cloneTargetBytes? (Evm.delegateCall :: rest) with
    | none => rfl
    | some target =>
      obtain ⟨-, shape, hshape, hprefix⟩ := cloneTargetBytes?_eq_some_iff.1 htarget
      simp only [cloneShapes, List.mem_cons, List.not_mem_nil, or_false] at hshape
      rcases hshape with rfl | rfl
      · exact absurd (List.cons_prefix_cons.1 hprefix).1 (by decide)
      · exact absurd (List.cons_prefix_cons.1 hprefix).1 (by decide)
  · have hunmarked : ∀ i ∈ [(⟨0, Evm.delegateCall, []⟩ : Instruction)], Unmarked i.opcode := by
      decide +kernel
    rw [if_neg hp, if_neg hp, hsweep, firstMark?_append_of_unmarked hunmarked]
    exact if_pos rfl

/-- In a clone with more code behind it every other pattern is reported as it is behind a lone delegating
instruction, but at a later place. -/
theorem reported?_clone {shape : List UInt8 × List UInt8} (hshape : shape ∈ cloneShapes)
    {target : List UInt8} (h : target.length = 20) (rest : List UInt8) {p : Pattern} (hp : p ≠ .fixed) :
    reported? (shape.1 ++ target ++ shape.2 ++ rest) p =
      (reported? (Evm.delegateCall :: rest) p).map
        (·.later (shape.1.length + 20 + shape.2.length - 1)) := by
  obtain ⟨opcodes, hcut, hdelegates, hunmarked⟩ := exists_cut_of_shape hshape h
  obtain ⟨is, his, hsweep⟩ := hcut.exists_sweepFrom 0
  let k := shape.1.length + 20 + shape.2.length - 1
  have hlength : 0 + (shape.1 ++ target ++ shape.2).length = 1 + k := by
    have hpos : 0 < shape.1.length + 20 + shape.2.length := by omega
    rw [List.length_append, List.length_append, h, Nat.zero_add]
    exact (Nat.add_sub_of_le hpos).symm
  have hlater : Evm.sweep (shape.1 ++ target ++ shape.2 ++ rest) =
      is ++ (Evm.sweepFrom 1 rest).map (·.later k) := by
    rw [Evm.sweep, hsweep rest, hlength, Evm.sweepFrom_later]
  have hany : is.any (·.delegates) = true := by
    rw [← his] at hdelegates
    obtain ⟨i, hi, hop⟩ := List.mem_map.1 hdelegates
    exact List.any_eq_true.2 ⟨i, hi, beq_iff_eq.2 hop⟩
  have hinert : ∀ i ∈ is, Unmarked i.opcode :=
    fun i hi => hunmarked i.opcode (his ▸ List.mem_map_of_mem hi)
  rw [reported?_delegateCall_cons, if_neg hp, reported?, if_neg hp, hlater, List.any_append, hany,
    Bool.true_or, if_pos rfl, firstMark?_append_of_unmarked hinert, Definition.firstMark?_later,
    Option.map_map, Option.map_map]
  exact congrArg (Option.map · _) (funext (entry_later p k))

/-- The templates of the catalog write the shapes of clones. -/
theorem exists_shape {t : Template} (ht : t ∈ (row .fixed).templates) :
    ∃ shape ∈ cloneShapes, templateBytes t.front = .ok shape.1 ∧ templateBytes t.back = .ok shape.2 ∧
      t.size = shape.1.length + 20 + shape.2.length := by
  have htemplates : (row .fixed).templates = [Catalog.eip1167, Catalog.erc7511] := rfl
  rw [htemplates, List.mem_cons, List.mem_singleton] at ht
  rcases ht with rfl | rfl
  · exact ⟨cloneShapes[0], List.getElem_mem _, templateBytes_of_toList (by decide),
      templateBytes_of_toList (by decide), by decide⟩
  · exact ⟨cloneShapes[1], List.getElem_mem _, templateBytes_of_toList (by decide),
      templateBytes_of_toList (by decide), by decide⟩

/-- Code that starts with a clone is found to be that clone, and next to it exactly those patterns are
found that are found behind a lone delegating instruction, at places that are later by the size of the
template less one. With nothing behind it a clone is nothing else, whatever address it holds. -/
theorem clone_with_code_behind {t : Template} (ht : t ∈ (row .fixed).templates)
    {front back target : List UInt8} (hfront : templateBytes t.front = .ok front)
    (hback : templateBytes t.back = .ok back) (htarget : target.length = 20) (rest : List UInt8) :
    ∃ found, Reports (Evm.delegateCall :: rest) found ∧
      Reports (front ++ target ++ back ++ rest)
        (cloneMatch target :: found.map (·.later (t.size - 1))) ∧
      (rest = [] → found = []) := by
  obtain ⟨shape, hshape, hfront', hback', hsize⟩ := exists_shape ht
  obtain rfl : shape.1 = front := Except.ok.inj (hfront'.symm.trans hfront)
  obtain rfl : shape.2 = back := Except.ok.inj (hback'.symm.trans hback)
  have hclone : reported? (shape.1 ++ target ++ shape.2 ++ rest) .fixed = some (cloneMatch target) := by
    have his : IsClone (shape.1 ++ target ++ shape.2 ++ rest) target :=
      ⟨htarget, shape, hshape, List.prefix_append _ _⟩
    rw [reported?, if_pos rfl, cloneTargetBytes?_eq_some_iff.2 his]
    rfl
  have hlone : reported? (Evm.delegateCall :: rest) .fixed = none := by
    rw [reported?_delegateCall_cons, if_pos rfl]
  have hall : Pattern.all = .fixed :: Pattern.all.tail := rfl
  have hothers : ∀ p ∈ Pattern.all.tail, p ≠ .fixed := by decide
  refine ⟨_, reports _, ?_, ?_⟩
  · have hfound : Pattern.all.filterMap (reported? (shape.1 ++ target ++ shape.2 ++ rest)) =
        cloneMatch target ::
          (Pattern.all.filterMap (reported? (Evm.delegateCall :: rest))).map (·.later (t.size - 1)) := by
      rw [hall, List.filterMap_cons_some hclone, List.filterMap_cons_none hlone, List.map_filterMap, hsize]
      exact congrArg _ (List.filterMap_congr fun p hp =>
        reported?_clone hshape htarget rest (hothers p hp))
    exact hfound ▸ reports _
  · rintro rfl
    rw [List.filterMap_eq_nil_iff]
    intro p _
    rw [reported?_delegateCall_cons, Evm.sweepFrom_nil]
    split <;> rfl

theorem clone_of_pushes_with_selector_behind :
    let target := List.replicate 20 Evm.push32
    let selector : List UInt8 := [0x63, 0x5c, 0x60, 0xda, 0x1b]
    Catalog.eip1167 ∈ (row .fixed).templates ∧
      templateBytes Catalog.eip1167.front = .ok cloneShapes[0].1 ∧
      templateBytes Catalog.eip1167.back = .ok cloneShapes[0].2 ∧ target.length = 20 ∧
      Reports (cloneShapes[0].1 ++ target ++ cloneShapes[0].2 ++ selector)
        [cloneMatch target,
          { pattern := .legacyUpgradeable, offset := 45, selector := some "0x5c60da1b" }] := by
  intro target selector
  have ht : Catalog.eip1167 ∈ (row .fixed).templates := List.mem_cons_self
  have hfront : templateBytes Catalog.eip1167.front = .ok cloneShapes[0].1 :=
    templateBytes_of_toList (by decide)
  have hback : templateBytes Catalog.eip1167.back = .ok cloneShapes[0].2 :=
    templateBytes_of_toList (by decide)
  have htarget : target.length = 20 := List.length_replicate
  obtain ⟨found, hfound, hclone, -⟩ := clone_with_code_behind ht hfront hback htarget selector
  have hlone : inText builtIn (String.ofList (Hex.encode (Evm.delegateCall :: selector))) =
      .ok [{ pattern := .legacyUpgradeable, offset := 1, selector := some "0x5c60da1b" }] :=
    eq_ok_of_toOption (by decide +kernel)
  obtain rfl := Except.ok.inj (hfound.written.symm.trans hlone)
  exact ⟨ht, hfront, hback, htarget, hclone⟩

end Detection

end ProxyCensus
