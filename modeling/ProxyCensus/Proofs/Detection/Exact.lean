import ProxyCensus.Proofs.Detection.BuiltIn
import ProxyCensus.Proofs.Hex

/-!
# Exact detection

What the search of code with the built-in catalog finds. Main statement: the matches are listed in
the order of the patterns, and they are exactly the match of a clone, when the code has the shape of
one, and for every other pattern the match of its first mark, when the code delegates.
-/

namespace ProxyCensus

open Evm (Instruction)

namespace Evm

theorem getElem?_of_mem_sweepFrom {offset : Nat} {code : List UInt8} {i : Instruction}
    (h : i ∈ sweepFrom offset code) :
    offset ≤ i.offset ∧ code[i.offset - offset]? = some i.opcode := by
  fun_induction sweepFrom offset code with
  | case1 => simp at h
  | case2 => simp at h
  | case3 offset opcode rest width operand hw ih =>
    rcases List.mem_cons.1 h with rfl | h
    · simp
    · obtain ⟨hle, hget⟩ := ih h
      refine ⟨by omega, ?_⟩
      rw [List.getElem?_drop] at hget
      rw [show i.offset - offset = width + (i.offset - (offset + 1 + width)) + 1 by omega]
      simpa using hget

theorem getElem?_of_mem_sweep {code : List UInt8} {i : Instruction} (h : i ∈ sweep code) :
    code[i.offset]? = some i.opcode := by
  simpa using (getElem?_of_mem_sweepFrom h).2

end Evm

namespace Detection

open Catalog (builtIn row)

/-- What stands before and after the address in a clone: in that of EIP-1167 and in that of
ERC-7511. -/
def cloneShapes : List (List UInt8 × List UInt8) := [
  ([0x36, 0x3d, 0x3d, 0x37, 0x3d, 0x3d, 0x3d, 0x36, 0x3d, 0x73],
    [0x5a, 0xf4, 0x3d, 0x82, 0x80, 0x3e, 0x90, 0x3d, 0x91, 0x60, 0x2b, 0x57, 0xfd, 0x5b, 0xf3]),
  ([0x36, 0x5f, 0x5f, 0x37, 0x5f, 0x5f, 0x36, 0x5f, 0x73],
    [0x5a, 0xf4, 0x3d, 0x5f, 0x5f, 0x3e, 0x5f, 0x3d, 0x91, 0x60, 0x2a, 0x57, 0xfd, 0x5b, 0xf3])]

/-- Code starts with a clone that forwards to the given twenty bytes. -/
def IsClone (code target : List UInt8) : Prop :=
  target.length = 20 ∧ ∃ shape ∈ cloneShapes, shape.1 ++ target ++ shape.2 <+: code

def cloneMatch (target : List UInt8) : Match :=
  { pattern := .fixed, implementation := some (Address.ofBytes target) }

/-- The twenty bytes between two fixed texts at the start of code. -/
def heldTarget? (front back code : List UInt8) : Option (List UInt8) :=
  let target := (code.drop front.length).take 20
  if target.length = 20 ∧ front ++ target ++ back <+: code then some target else none

theorem heldTarget?_eq_some_iff {front back code target : List UInt8} :
    heldTarget? front back code = some target ↔
      target.length = 20 ∧ front ++ target ++ back <+: code := by
  unfold heldTarget?
  constructor
  · intro h
    simp only [Option.ite_none_right_eq_some, Option.some.injEq] at h
    obtain ⟨h, rfl⟩ := h
    exact h
  · rintro ⟨hlen, hpre⟩
    have ht : (code.drop front.length).take 20 = target := by
      obtain ⟨tail, rfl⟩ := hpre
      simp [List.append_assoc, ← hlen]
    rw [ht, if_pos ⟨hlen, hpre⟩]

/-- Code that is long enough holds a target when both fixed texts are in their places. -/
theorem prefix_target_iff {front back code : List UInt8}
    (h : front.length + 20 + back.length ≤ code.length) :
    front ++ (code.drop front.length).take 20 ++ back <+: code ↔
      code.take front.length = front ∧ (code.drop (front.length + 20)).take back.length = back := by
  have ht : ((code.drop front.length).take 20).length = 20 := by
    simp only [List.length_take, List.length_drop]
    omega
  rw [List.prefix_iff_eq_take]
  simp only [List.length_append, ht, List.take_add]
  constructor
  · intro h
    obtain ⟨h, hb⟩ := List.append_inj' h (by simp; omega)
    obtain ⟨hf, -⟩ := List.append_inj' h (by simp)
    exact ⟨hf.symm, hb.symm⟩
  · rintro ⟨hf, hb⟩
    rw [hf, hb]

theorem heldTarget?_of_short {front back code : List UInt8}
    (h : code.length < front.length + 20 + back.length) : heldTarget? front back code = none := by
  rw [Option.eq_none_iff_forall_ne_some]
  intro target ht
  obtain ⟨h20, hp⟩ := heldTarget?_eq_some_iff.1 ht
  have := hp.length_le
  simp only [List.length_append, h20] at this
  omega

theorem heldTarget?_of_long {front back code : List UInt8}
    (h : front.length + 20 + back.length ≤ code.length) :
    heldTarget? front back code =
      if code.take front.length = front ∧
          (code.drop (front.length + 20)).take back.length = back then
        some ((code.drop front.length).take 20)
      else none := by
  have h20 : ((code.drop front.length).take 20).length = 20 := by
    simp only [List.length_take, List.length_drop]
    omega
  unfold heldTarget?
  simp only [h20, true_and, prefix_target_iff h]

/-- A template is looked for by comparing its fixed texts. -/
theorem templateAddress?_eq {t : Template} {front back : List UInt8} (code : List UInt8)
    (hf : templateBytes t.front = .ok front) (hb : templateBytes t.back = .ok back)
    (ho : t.addressOffset = front.length) (hs : t.size = front.length + 20 + back.length) :
    templateAddress? t code = .ok ((heldTarget? front back code).map Address.ofBytes) := by
  unfold templateAddress?
  rw [List.length_take, hs, hf, hb, ho]
  by_cases hlen : code.length < front.length + 20 + back.length
  · rw [if_pos (by omega), heldTarget?_of_short hlen]
    rfl
  · rw [if_neg (by omega), heldTarget?_of_long (Nat.le_of_not_lt hlen)]
    simp only [Bool.and_eq_true, beq_iff_eq, bind, Except.bind, pure, Except.pure]
    split <;> rfl

theorem templateAddress?_eip1167 (code : List UInt8) :
    templateAddress? Catalog.eip1167 code =
      .ok ((heldTarget? cloneShapes[0].1 cloneShapes[0].2 code).map Address.ofBytes) :=
  templateAddress?_eq code (templateBytes_of_toList (by decide)) (templateBytes_of_toList (by decide))
    (by decide) (by decide)

theorem templateAddress?_erc7511 (code : List UInt8) :
    templateAddress? Catalog.erc7511 code =
      .ok ((heldTarget? cloneShapes[1].1 cloneShapes[1].2 code).map Address.ofBytes) :=
  templateAddress?_eq code (templateBytes_of_toList (by decide)) (templateBytes_of_toList (by decide))
    (by decide) (by decide)

def cloneTargetBytes? (code : List UInt8) : Option (List UInt8) :=
  (heldTarget? cloneShapes[0].1 cloneShapes[0].2 code).or
    (heldTarget? cloneShapes[1].1 cloneShapes[1].2 code)

theorem cloneTargetBytes?_eq_some_iff {code target : List UInt8} :
    cloneTargetBytes? code = some target ↔ IsClone code target := by
  rw [cloneTargetBytes?, Option.or_eq_some_iff, heldTarget?_eq_some_iff, heldTarget?_eq_some_iff]
  unfold IsClone
  constructor
  · rintro (⟨hlen, hp⟩ | ⟨-, hlen, hp⟩)
    · exact ⟨hlen, cloneShapes[0], by simp [cloneShapes], hp⟩
    · exact ⟨hlen, cloneShapes[1], by simp [cloneShapes], hp⟩
  · rintro ⟨hlen, shape, hs, hp⟩
    simp only [cloneShapes, List.mem_cons, List.not_mem_nil, or_false] at hs
    rcases hs with rfl | rfl
    · exact .inl ⟨hlen, hp⟩
    · refine .inr ⟨?_, hlen, hp⟩
      -- The two shapes differ in their second byte.
      rw [Option.eq_none_iff_forall_ne_some]
      intro other ho
      obtain ⟨tail, rfl⟩ := hp
      obtain ⟨-, tail', ht⟩ := heldTarget?_eq_some_iff.1 ho
      simp [cloneShapes] at ht

theorem templateMatches_of_bare {code : List UInt8} {catalog : List Definition}
    (h : ∀ d ∈ catalog, d.templates = []) : templateMatches code catalog = .ok [] := by
  induction catalog with
  | nil => rfl
  | cons d rest ih =>
    rw [templateMatches, h d (by simp), cloneTarget?]
    exact ih fun d hd => h d (by simp [hd])

theorem templateMatches_builtIn (code : List UInt8) :
    templateMatches code builtIn = .ok ((cloneTargetBytes? code).map cloneMatch).toList := by
  have bare : templateMatches code builtIn.tail = .ok [] :=
    templateMatches_of_bare (by simp [builtIn])
  have split : builtIn = row .fixed :: builtIn.tail := rfl
  have targets : cloneTarget? code (row .fixed).templates =
      .ok ((cloneTargetBytes? code).map Address.ofBytes) := by
    have ht : (row .fixed).templates = [Catalog.eip1167, Catalog.erc7511] := rfl
    rw [ht, cloneTarget?, templateAddress?_eip1167, cloneTargetBytes?]
    cases heldTarget? cloneShapes[0].1 cloneShapes[0].2 code with
    | some target => rfl
    | none =>
      rw [Option.none_or, cloneTarget?, templateAddress?_erc7511]
      cases heldTarget? cloneShapes[1].1 cloneShapes[1].2 code <;> rfl
  rw [split, templateMatches, targets, bare]
  cases cloneTargetBytes? code <;> rfl

theorem mem_firstMatches_iff {found : List Match} {m : Match} :
    m ∈ firstMatches found ↔ found.find? (·.pattern == m.pattern) = some m := by
  simp only [firstMatches, List.mem_filterMap]
  constructor
  · rintro ⟨p, -, hp⟩
    have : m.pattern = p := by simpa using List.find?_some hp
    rwa [this]
  · intro h
    exact ⟨m.pattern, Pattern.mem_all _, h⟩

theorem pairwise_rank_firstMatches (found : List Match) :
    (firstMatches found).Pairwise fun a b => a.pattern.rank < b.pattern.rank := by
  have ranks : Pattern.all.Pairwise fun p q => p.rank < q.rank := by decide
  rw [firstMatches, List.pairwise_filterMap]
  apply ranks.imp
  intro p q hpq a ha b hb
  have hp : a.pattern = p := by simpa using List.find?_some ha
  have hq : b.pattern = q := by simpa using List.find?_some hb
  rwa [hp, hq]

/-- All marks that the built-in catalog finds in code. -/
theorem allMatches_builtIn (code : List UInt8) :
    allMatches builtIn code = .ok (((cloneTargetBytes? code).map cloneMatch).toList ++
      if (Evm.sweep code).any (·.delegates) then instructionMatches builtIn 2 [] (Evm.sweep code)
      else []) := by
  have longest : longestSequence builtIn = 2 := by decide
  rw [allMatches, templateMatches_builtIn, longest]
  simp only [bind, Except.bind]
  split
  · rfl
  · simp [pure, Except.pure]

theorem firstMark?_fixed (is : List Instruction) : (row .fixed).firstMark? is = none := by
  have hseq : (row .fixed).sequences = [] := rfl
  induction is with
  | nil => rfl
  | cons i rest ih =>
    have : ¬ (row .fixed).PushedBy i := by simp [Definition.PushedBy, row, builtIn]
    simp [Definition.firstMark?, Definition.marks_cons_of_sequences_nil hseq, this, ih]

theorem find?_allMatches {code : List UInt8} {all : List Match}
    (h : allMatches builtIn code = .ok all) (p : Pattern) :
    all.find? (·.pattern == p) =
      if p = .fixed then (cloneTargetBytes? code).map cloneMatch
      else if (Evm.sweep code).any (·.delegates) then
        ((row p).firstMark? (Evm.sweep code)).map (entry p)
      else none := by
  rw [allMatches_builtIn] at h
  cases h
  by_cases hp : p = .fixed
  · subst hp
    cases hc : cloneTargetBytes? code with
    | some target => simp [cloneMatch]
    | none =>
      by_cases hd : (Evm.sweep code).any (·.delegates)
      · simp [hd, find?_instructionMatches_builtIn, firstMark?_fixed]
      · simp [hd]
  · have skip : ((cloneTargetBytes? code).map cloneMatch).toList.find? (·.pattern == p) = none := by
      cases cloneTargetBytes? code with
      | none => rfl
      | some target => simp [cloneMatch, Ne.symm hp]
    by_cases hd : (Evm.sweep code).any (·.delegates)
    · simp [skip, hp, hd, find?_instructionMatches_builtIn]
    · simp [skip, hp, hd]

theorem inCode_builtIn (code : List UInt8) {all : List Match}
    (h : allMatches builtIn code = .ok all) : inCode builtIn code = .ok (firstMatches all) := by
  cases code with
  | nil =>
    rw [allMatches_builtIn] at h
    cases h
    simp [inCode, Evm.sweep, cloneTargetBytes?, heldTarget?, firstMatches]
  | cons b rest =>
    rw [inCode, h]
    rfl

/-- A match is found exactly if it is that of a clone or, in code that delegates, that of a first
mark. -/
theorem mem_inCode_builtIn_iff {code : List UInt8} {found : List Match}
    (h : inCode builtIn code = .ok found) (m : Match) :
    m ∈ found ↔
      (∃ target, IsClone code target ∧ m = cloneMatch target) ∨
      m.pattern ≠ .fixed ∧ (∃ i ∈ Evm.sweep code, i.opcode = Evm.delegateCall) ∧
        ∃ i, (row m.pattern).FirstMark (Evm.sweep code) i ∧ m = entry m.pattern i := by
  have hall := allMatches_builtIn code
  obtain rfl := Except.ok.inj ((inCode_builtIn code hall).symm.trans h)
  have delegates : (Evm.sweep code).any (·.delegates) = true ↔
      ∃ i ∈ Evm.sweep code, i.opcode = Evm.delegateCall := by
    simp [Evm.Instruction.delegates]
  rw [mem_firstMatches_iff, find?_allMatches hall, ← delegates]
  by_cases hp : m.pattern = .fixed
  · simp only [hp, if_true, Option.map_eq_some_iff, cloneTargetBytes?_eq_some_iff, ne_eq,
      not_true_eq_false, false_and, or_false, @eq_comm _ m]
  · have hclone : ¬ ∃ target, IsClone code target ∧ m = cloneMatch target := by
      rintro ⟨target, -, rfl⟩
      exact hp rfl
    simp only [hp, if_false, hclone, false_or, ne_eq, not_false_eq_true, true_and,
      Option.ite_none_right_eq_some, Option.map_eq_some_iff, Definition.firstMark?_eq_some_iff]
    simp only [@eq_comm _ m]

/-- For every code, in whatever spelling, the built-in catalog finds exactly the following, in the
order of the patterns: the clone whose shape the code has, and in code that delegates every other
pattern with its first mark. -/
theorem inText_builtIn_exact (code : List UInt8) :
    ∃ found : List Match,
      inText builtIn (String.ofList (Hex.encode code)) = .ok found ∧
      (∀ s, codeBytes s = .ok code → inText builtIn s = .ok found) ∧
      (found.Pairwise fun a b => a.pattern.rank < b.pattern.rank) ∧
      ∀ m, m ∈ found ↔
        (∃ target, IsClone code target ∧ m = cloneMatch target) ∨
        m.pattern ≠ .fixed ∧ (∃ i ∈ Evm.sweep code, i.opcode = Evm.delegateCall) ∧
          ∃ i, (row m.pattern).FirstMark (Evm.sweep code) i ∧ code[i.offset]? = some i.opcode ∧
            m = entry m.pattern i := by
  have hcode := inCode_builtIn code (allMatches_builtIn code)
  have spelled : ∀ s, codeBytes s = .ok code → inText builtIn s = inCode builtIn code := by
    intro s hs
    rw [inText, hs]
    rfl
  refine ⟨_, (spelled _ (codeBytes_encode code)).trans hcode, fun s hs => (spelled s hs).trans hcode,
    pairwise_rank_firstMatches _, fun m => ?_⟩
  rw [mem_inCode_builtIn_iff hcode]
  refine or_congr_right (and_congr_right fun _ => and_congr_right fun _ => exists_congr fun i => ?_)
  constructor
  · rintro ⟨hi, hm⟩
    exact ⟨hi, Evm.getElem?_of_mem_sweep hi.mem, hm⟩
  · rintro ⟨hi, -, hm⟩
    exact ⟨hi, hm⟩

end Detection

end ProxyCensus
