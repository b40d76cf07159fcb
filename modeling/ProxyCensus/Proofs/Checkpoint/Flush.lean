import ProxyCensus.Proofs.Checkpoint.Staging
import ProxyCensus.Proofs.Job.Flush

/-!
# Flushes on any disk

What a flush leaves behind on a disk in any state, whatever stands in its way. Main statement: a flush
that fails before the first move leaves every file of the family as it was and nothing of what it has
staged, unless the disk holds a staged text; one that fails at a move has replaced the files before it
and no other; and one that returns has replaced all of them and left nothing waiting. At every moment in
between the first few files of the family are new as a whole, and all others as they were.
-/

namespace ProxyCensus

namespace Snapshot

open Act (after Succeed FailsAt)
open Disk (Same)

/-- The first `k` files of a family are new, and the others as they were on an earlier disk. -/
structure Moved (folder : Path) (items : List (String × String)) (d : Disk) (k : Nat) (d' : Disk) :
    Prop where
  moved : ∀ item ∈ items.take k, d'.get? (place folder item.1) = some (.file item.2)
  kept : ∀ item ∈ items.drop k, Same [] folder d d' (place folder item.1)

theorem PlainFamily.ne_waiting {items : List (String × String)}
    (h : PlainFamily (items.map (·.1))) (folder : Path) {item other : String × String}
    (hitem : item ∈ items) (hother : other ∈ items) :
    place folder item.1 ≠ place folder (waiting other.1) := by
  refine place_ne fun heq => ?_
  refine h.apart other.1 (List.mem_map_of_mem hother) ?_
  rw [← heq]
  exact List.mem_map_of_mem hitem

theorem PlainFamily.take {items : List (String × String)} (h : PlainFamily (items.map (·.1)))
    (n : Nat) : PlainFamily ((items.take n).map (·.1)) := by
  have hmem : ∀ name ∈ (items.take n).map (·.1), name ∈ items.map (·.1) :=
    fun name hname => List.map_subset _ (List.take_subset n items) hname
  refine ⟨fun name hname => h.plain name (hmem name hname), ?_, ?_⟩
  · rw [List.map_take]
    exact h.distinct.sublist (List.take_sublist n _)
  · exact fun name hname hw => h.apart name (hmem name hname) (hmem _ hw)

theorem PlainFamily.ne_of_drop_take {items : List (String × String)}
    (h : PlainFamily (items.map (·.1))) {n : Nat} {item other : String × String}
    (hitem : item ∈ items.drop n) (hother : other ∈ items.take n) : item.1 ≠ other.1 := by
  intro heq
  have hdisjoint := List.disjoint_take_drop h.distinct (Nat.le_refl n)
  rw [← List.map_take, ← List.map_drop] at hdisjoint
  refine hdisjoint (List.mem_map_of_mem hother) ?_
  rw [← heq]
  exact List.mem_map_of_mem hitem

variable {folder : Path} {items : List (String × String)} {d : Disk}

/-- While texts are staged and swept the files of the family stay as they were. -/
theorem moved_zero (hfamily : PlainFamily (items.map (·.1))) {steps : List (Act Disk Unit)}
    (hsteps : ∀ x ∈ steps,
      x ∈ stagings (targets folder items) ∨ x ∈ sweeps (targets folder items)) :
    Moved folder items d 0 (after d steps) := by
  constructor
  · intro item hitem
    cases hitem
  · intro item hitem
    exact after_same hsteps (fun other hother => hfamily.ne_waiting folder hitem hother) d

theorem sweeps_take (texts : List (Target × String)) (n : Nat) :
    sweeps (texts.take n) = (sweeps texts).take n :=
  List.map_take

theorem moves_take (folder : Path) (items : List (String × String)) (n : Nat) :
    (moves (targets folder items)).take n = moves (targets folder (items.take n)) := by
  rw [moves_targets, moves_targets, List.map_take]

theorem landed_of_take (hfamily : PlainFamily (items.map (·.1)))
    (hstaged : Succeed d (stagings (targets folder items))) {n : Nat}
    (h : Succeed (after d (stagings (targets folder items))) ((moves (targets folder items)).take n)) :
    Landed folder (items.take n) (after d (stagings (targets folder items)))
      (after (after d (stagings (targets folder items))) ((moves (targets folder items)).take n)) := by
  rw [moves_take] at h ⊢
  exact landed_of_moves (hfamily.take n) (fun item hitem =>
    waits_of_staged hfamily.distinct hstaged item (List.mem_of_mem_take hitem)) h

/-- After as many moves as many files of the family are new. -/
theorem moved_of_moves (hfamily : PlainFamily (items.map (·.1)))
    (hstaged : Succeed d (stagings (targets folder items))) {n : Nat}
    (h : Succeed (after d (stagings (targets folder items))) ((moves (targets folder items)).take n)) :
    Moved folder items d n
      (after (after d (stagings (targets folder items))) ((moves (targets folder items)).take n)) := by
  have hlanded := landed_of_take hfamily hstaged h
  refine ⟨hlanded.moved, fun item hitem => ?_⟩
  have hmem := List.mem_of_mem_drop hitem
  refine Same.trans ((moved_zero hfamily fun _ => .inl).kept item hmem) (.inl (hlanded.kept _ ?_))
  intro other hother
  exact ⟨place_ne (hfamily.ne_of_drop_take hitem hother),
    hfamily.ne_waiting folder hmem (List.mem_of_mem_take hother)⟩

/-- A move fails only for an obstacle, and changes nothing then. -/
theorem blocked_of_failsAt (hfamily : PlainFamily (items.map (·.1)))
    (hstaged : Succeed d (stagings (targets folder items))) {i : Nat} {f : Failure}
    (h : FailsAt (after d (stagings (targets folder items))) (moves (targets folder items)) i f) :
    let before := after (after d (stagings (targets folder items)))
      ((moves (targets folder items)).take i)
    (∃ item, items[i]? = some item ∧ Obstacle folder item.1 before f) ∧
      after (after d (stagings (targets folder items))) ((moves (targets folder items)).take (i + 1)) =
        before := by
  intro before
  have hlanded := landed_of_take hfamily hstaged h.succeed_take
  obtain ⟨x, hx, hf⟩ := h.fails
  have hnext : after (after d (stagings (targets folder items)))
      ((moves (targets folder items)).take (i + 1)) = (x.go before).2 := Act.after_take_succ hx
  rw [moves_targets, List.getElem?_map, Option.map_eq_some_iff] at hx
  obtain ⟨item, hitem, rfl⟩ := hx
  have hdrop : item ∈ items.drop i := by
    rw [← List.head?_drop] at hitem
    exact List.mem_of_head? hitem
  have hmem := List.mem_of_mem_drop hdrop
  have hwaits : Waits folder before item := by
    refine (waits_of_staged hfamily.distinct hstaged item hmem).mono hlanded.under
      (.inl (hlanded.kept _ fun other hother => ?_))
    exact ⟨(hfamily.ne_waiting folder (List.mem_of_mem_take hother) hmem).symm,
      place_ne fun heq => hfamily.ne_of_drop_take hdrop hother (waiting_inj heq)⟩
  have hmove := go_move hwaits (hfamily.plain item.1 (List.mem_map_of_mem hmem))
  change (Act.go _ before).1 = _ at hf
  rw [hmove] at hf hnext
  split at hf
  · obtain rfl := Except.error.inj hf
    rw [if_pos ‹_›] at hnext
    exact ⟨⟨item, hitem, .folder ‹_›⟩, hnext⟩
  · rw [if_neg ‹_›] at hnext
    split at hf
    · obtain rfl := Except.error.inj hf
      rw [if_pos ‹_›] at hnext
      exact ⟨⟨item, hitem, .held ‹_›⟩, hnext⟩
    · cases hf

theorem mem_of_sweeps_take {i n : Nat} {x : Act Disk Unit}
    (hx : x ∈ (sweeps ((targets folder items).take i)).take n) : x ∈ sweeps (targets folder items) := by
  rw [sweeps_take] at hx
  exact List.mem_of_mem_take (List.mem_of_mem_take hx)

theorem mem_of_unstaged {i : Nat} {f : Failure} {x : Act Disk Unit}
    (hx : x ∈ (stagings (targets folder items)).take (i + 1) ++
      if f.isSystem then sweeps ((targets folder items).take i) else []) :
    x ∈ stagings (targets folder items) ∨ x ∈ sweeps (targets folder items) := by
  rcases List.mem_append.1 hx with hx | hx
  · exact .inl (List.mem_of_mem_take hx)
  · split at hx
    · rw [sweeps_take] at hx
      exact .inr (List.mem_of_mem_take hx)
    · cases hx

theorem mem_of_unswept {i k : Nat} {x : Act Disk Unit}
    (hx : x ∈ (stagings (targets folder items)).take (i + 1) ++
      (sweeps ((targets folder items).take i)).take (k + 1)) :
    x ∈ stagings (targets folder items) ∨ x ∈ sweeps (targets folder items) :=
  (List.mem_append.1 hx).imp List.mem_of_mem_take mem_of_sweeps_take

/-- At every moment of a flush the first few files of the family are new, and the others as they
were. -/
theorem Course.moments (hfamily : PlainFamily (items.map (·.1))) {steps : List (Act Disk Unit)}
    {r : Except Failure Unit} (h : Course d (targets folder items) steps r) (n : Nat) :
    ∃ k, Moved folder items d k (after d (steps.take n)) := by
  have hmoves : ∀ (m : Nat), Succeed d (stagings (targets folder items)) →
      (∀ l ≤ m, ∃ k, Moved folder items d k (after (after d (stagings (targets folder items)))
        ((moves (targets folder items)).take l))) →
      ∃ k, Moved folder items d k (after d
        ((stagings (targets folder items) ++ (moves (targets folder items)).take m).take n)) := by
    intro m hstaged hm
    rw [List.take_append, Act.after_append]
    by_cases hn : n ≤ (stagings (targets folder items)).length
    · rw [Nat.sub_eq_zero_of_le hn, List.take_zero, Act.after_nil]
      exact ⟨0, moved_zero hfamily fun x hx => .inl (List.mem_of_mem_take hx)⟩
    · rw [List.take_of_length_le (by omega), List.take_take]
      exact hm _ (Nat.min_le_right _ _)
  cases h with
  | unstaged hfails =>
    exact ⟨0, moved_zero hfamily fun x hx => mem_of_unstaged (List.mem_of_mem_take hx)⟩
  | unswept hfails =>
    exact ⟨0, moved_zero hfamily fun x hx => mem_of_unswept (List.mem_of_mem_take hx)⟩
  | @unmoved i f hstaged hfails =>
    refine hmoves (i + 1) hstaged fun l hl => ?_
    rcases Nat.le_succ_iff.1 hl with hl | rfl
    · have hsucceed := hfails.succeed_take.take l
      rw [List.take_take, Nat.min_eq_left hl] at hsucceed
      exact ⟨l, moved_of_moves hfamily hstaged hsucceed⟩
    · obtain ⟨-, hsame⟩ := blocked_of_failsAt hfamily hstaged hfails
      rw [hsame]
      exact ⟨i, moved_of_moves hfamily hstaged hfails.succeed_take⟩
  | done hstaged h =>
    have hall := hmoves (moves (targets folder items)).length hstaged fun l _ =>
      ⟨l, moved_of_moves hfamily hstaged (h.take l)⟩
    rwa [List.take_length] at hall

theorem stagings_take (folder : Path) (items : List (String × String)) (n : Nat) :
    (stagings (targets folder items)).take n = stagings (targets folder (items.take n)) := by
  rw [stagings_targets, stagings_targets, List.map_take]

/-- When a text is not staged, nothing has changed since the texts before it were, but for folders on the
way and for the place where it was to wait when the disk refuses texts there. -/
theorem unstaged_of_failsAt {i : Nat} {f : Failure}
    (h : FailsAt d (stagings (targets folder items)) i f) :
    let before := after d ((stagings (targets folder items)).take i)
    let left := after d ((stagings (targets folder items)).take (i + 1))
    ∃ item, items[i]? = some item ∧
      (f.isSystem = true ∨ (folder ++ [waiting item.1]).hasNull = true) ∧ before.Under left ∧
      ∀ q, (q = place folder (waiting item.1) → d.shortage q = none) →
        Same [] folder before left q := by
  intro before left
  have hrules : before.rules = d.rules := after_rules (fun x hx => .inl (List.mem_of_mem_take hx)) d
  obtain ⟨x, hx, hf⟩ := h.fails
  have hleft : left = (x.go before).2 := Act.after_take_succ hx
  rw [hleft]
  rw [stagings_targets, List.getElem?_map, Option.map_eq_some_iff] at hx
  obtain ⟨item, hitem, rfl⟩ := hx
  rcases stage_cases folder item before with ⟨hok, -⟩ | ⟨⟨g, hg, hsystem⟩, hunder, hsame⟩
  · exact absurd (hok.symm.trans hf) (by simp)
  · obtain rfl := Except.error.inj (hg.symm.trans hf)
    refine ⟨item, hitem, hsystem, hunder, fun q hq => hsame q fun heq => ?_⟩
    rw [Disk.shortage_of_rules hrules]
    exact hq heq

/-- When a text is not staged, the texts before it wait. -/
theorem waits_of_failsAt (hfamily : PlainFamily (items.map (·.1))) {i : Nat} {f : Failure}
    (h : FailsAt d (stagings (targets folder items)) i f) :
    (∀ item ∈ items.take i,
        Waits folder (after d ((stagings (targets folder items)).take (i + 1))) item) ∧
      (f.isSystem = true ∨ folder.hasNull = true) := by
  obtain ⟨item, hitem, hsystem, hunder, hsame⟩ := unstaged_of_failsAt h
  have hwaits : ∀ item ∈ items.take i,
      Waits folder (after d ((stagings (targets folder items)).take i)) item := by
    have hstaged := h.succeed_take
    rw [stagings_take] at hstaged ⊢
    exact waits_of_staged (hfamily.take i).distinct hstaged
  have hdrop : item ∈ items.drop i := by
    rw [← List.head?_drop] at hitem
    exact List.mem_of_head? hitem
  constructor
  · refine fun other hother => (hwaits other hother).mono hunder (hsame _ fun heq => ?_)
    exact absurd heq (place_ne fun h => hfamily.ne_of_drop_take hdrop hother (waiting_inj h).symm)
  · have hname := hfamily.plain item.1 (List.mem_map_of_mem (List.mem_of_mem_drop hdrop))
    refine hsystem.imp_right fun hnull => ?_
    rw [hasNull_concat] at hnull
    simpa [waiting, hname.noNull] using hnull

theorem targets_take (folder : Path) (items : List (String × String)) (n : Nat) :
    (targets folder items).take n = targets folder (items.take n) :=
  List.map_take.symm

/-- When a text is not staged, none of those before it is left waiting once all are taken away. -/
theorem swept_of_failsAt (hfamily : PlainFamily (items.map (·.1))) {i : Nat} {f : Failure}
    (h : FailsAt d (stagings (targets folder items)) i f)
    (hswept : f.isSystem = true → Succeed (after d ((stagings (targets folder items)).take (i + 1)))
      (sweeps ((targets folder items).take i))) :
    ∀ item ∈ items.take i, (after d ((stagings (targets folder items)).take (i + 1) ++
      if f.isSystem then sweeps ((targets folder items).take i) else [])).get?
        (place folder (waiting item.1)) = none := by
  intro item hitem
  obtain ⟨hwaits, hsystem⟩ := waits_of_failsAt hfamily h
  have hnull := (hwaits item hitem).noNull
  have hsystem := hsystem.resolve_right (by simp [hnull])
  rw [hsystem, if_pos rfl, Act.after_append, targets_take]
  exact swept_of_waits (hfamily.take i).distinct hwaits (targets_take .. ▸ hswept hsystem) item hitem

/-- When a text is not staged, one of those before it is left only if the disk holds it. -/
theorem held_of_failsAt (hfamily : PlainFamily (items.map (·.1))) {i k : Nat} {f g : Failure}
    (h : FailsAt d (stagings (targets folder items)) i f)
    (hrefused : FailsAt (after d ((stagings (targets folder items)).take (i + 1)))
      (sweeps ((targets folder items).take i)) k g) :
    g = .disk .denied ∧ k < i ∧
      (∃ item, items[k]? = some item ∧ d.held (place folder (waiting item.1)) = true) ∧
      ∀ item ∈ items.take k, (after d ((stagings (targets folder items)).take (i + 1) ++
        (sweeps ((targets folder items).take i)).take (k + 1))).get?
          (place folder (waiting item.1)) = none := by
  obtain ⟨hwaits, -⟩ := waits_of_failsAt hfamily h
  rw [targets_take] at hrefused ⊢
  obtain ⟨hg, ⟨item, hitem, hheld⟩, hgone⟩ :=
    held_of_sweeps (hfamily.take i).distinct hwaits hrefused
  rw [Disk.held_of_rules (after_rules (fun x hx => .inl (List.mem_of_mem_take hx)) d)] at hheld
  obtain ⟨hitem, hk⟩ : items[k]? = some item ∧ k < i := by
    rw [List.getElem?_take] at hitem
    split at hitem
    · exact ⟨hitem, ‹_›⟩
    · cases hitem
  rw [List.take_take, Nat.min_eq_left (Nat.le_of_lt hk)] at hgone
  rw [Act.after_append]
  exact ⟨hg, hk, ⟨item, hitem, hheld⟩, hgone⟩

/-- How a flush of a family of texts ends: with its result, and with the disk that it leaves. -/
inductive Ended (folder : Path) (items : List (String × String)) (d : Disk) :
    Except Failure Unit → Disk → Prop
  /-- Text number `i` was not staged: every file is as it was, and no text staged before is left. -/
  | unstaged {i : Nat} {f : Failure} {d' : Disk}
      (h : FailsAt d (stagings (targets folder items)) i f)
      (files : Moved folder items d 0 d')
      (swept : ∀ item ∈ items.take i, d'.get? (place folder (waiting item.1)) = none) :
      Ended folder items d (.error f) d'
  /-- Text number `i` was not staged, and of those before it the disk refuses to take number `k` away:
  every file is as it was, and no text staged before number `k` is left. -/
  | unswept {i k : Nat} {f : Failure} {item : String × String} {d' : Disk}
      (h : FailsAt d (stagings (targets folder items)) i f)
      (files : Moved folder items d 0 d')
      (hk : k < i)
      (hitem : items[k]? = some item)
      (held : d.held (place folder (waiting item.1)) = true)
      (swept : ∀ item ∈ items.take k, d'.get? (place folder (waiting item.1)) = none) :
      Ended folder items d (.error (.disk .denied)) d'
  /-- All texts were staged, and number `i` was not moved for an obstacle: the files before it are new,
  and all others as they were. -/
  | unmoved {i : Nat} {f : Failure} {item : String × String} {d' : Disk}
      (hstaged : Succeed d (stagings (targets folder items)))
      (h : FailsAt (after d (stagings (targets folder items))) (moves (targets folder items)) i f)
      (files : Moved folder items d i d')
      (hitem : items[i]? = some item)
      (blocked : Obstacle folder item.1 d' f) :
      Ended folder items d (.error f) d'
  /-- Every file is new, and no text is left waiting. -/
  | done {d' : Disk} (files : Moved folder items d items.length d')
      (swept : ∀ item ∈ items, d'.get? (place folder (waiting item.1)) = none) :
      Ended folder items d (.ok ()) d'

theorem Course.ended (hfamily : PlainFamily (items.map (·.1))) {steps : List (Act Disk Unit)}
    {r : Except Failure Unit} (h : Course d (targets folder items) steps r) :
    Ended folder items d r (after d steps) := by
  cases h with
  | unstaged hfails hswept =>
    exact .unstaged hfails (moved_zero hfamily fun x => mem_of_unstaged)
      (swept_of_failsAt hfamily hfails hswept)
  | unswept hfails _ hrefused =>
    obtain ⟨rfl, hk, ⟨item, hitem, hheld⟩, hgone⟩ := held_of_failsAt hfamily hfails hrefused
    exact .unswept hfails (moved_zero hfamily fun x => mem_of_unswept) hk hitem hheld hgone
  | unmoved hstaged hfails =>
    obtain ⟨⟨item, hitem, hblocked⟩, hsame⟩ := blocked_of_failsAt hfamily hstaged hfails
    rw [Act.after_append, hsame]
    exact .unmoved hstaged hfails (moved_of_moves hfamily hstaged hfails.succeed_take) hitem hblocked
  | done hstaged h =>
    have hwaits := waits_of_staged hfamily.distinct hstaged
    have hmoved := moved_of_moves hfamily hstaged (h.take items.length)
    rw [moves_take, List.take_length] at hmoved
    rw [Act.after_append]
    exact .done hmoved (landed_of_moves hfamily hwaits h).swept

/-- A flush changes no other places than those of the files and those where their texts wait. -/
theorem Course.kept (hfamily : PlainFamily (items.map (·.1))) {steps : List (Act Disk Unit)}
    {r : Except Failure Unit} (h : Course d (targets folder items) steps r) {q : Path}
    (hq : ∀ item ∈ items, q ≠ place folder item.1 ∧ q ≠ place folder (waiting item.1)) :
    Same [] folder d (after d steps) q := by
  have hwaiting : ∀ item ∈ items, q ≠ place folder (waiting item.1) := fun item hitem =>
    (hq item hitem).2
  have hmoves : ∀ {n : Nat}, Succeed d (stagings (targets folder items)) →
      Succeed (after d (stagings (targets folder items))) ((moves (targets folder items)).take n) →
      Same [] folder d (after (after d (stagings (targets folder items)))
        ((moves (targets folder items)).take n)) q := by
    intro n hstaged h
    refine Same.trans (after_same (fun _ => .inl) hwaiting d) (.inl ?_)
    exact (landed_of_take hfamily hstaged h).kept q fun item hitem => hq item (List.mem_of_mem_take hitem)
  cases h with
  | unstaged hfails => exact after_same (fun x => mem_of_unstaged) hwaiting d
  | unswept hfails => exact after_same (fun x => mem_of_unswept) hwaiting d
  | unmoved hstaged hfails =>
    obtain ⟨-, hsame⟩ := blocked_of_failsAt hfamily hstaged hfails
    rw [Act.after_append, hsame]
    exact hmoves hstaged hfails.succeed_take
  | done hstaged h =>
    have hall := hmoves hstaged (h.take (moves (targets folder items)).length)
    rwa [List.take_length, ← Act.after_append] at hall

theorem Course.rules {steps : List (Act Disk Unit)} {r : Except Failure Unit}
    (h : Course d (targets folder items) steps r) : (after d steps).rules = d.rules := by
  refine @after_rules (targets folder items) steps (fun x hx => ?_) d
  cases h with
  | unstaged => exact (mem_of_unstaged hx).imp_right .inl
  | unswept => exact (mem_of_unswept hx).imp_right .inl
  | unmoved =>
    exact (List.mem_append.1 hx).imp_right fun h => .inr (List.mem_of_mem_take h)
  | done => exact (List.mem_append.1 hx).imp_right .inr

/-- A family of documents has texts, or one of its documents has none. -/
theorem renderAll_cases (folder : Path) {docs : List (String × Document)}
    (hnames : ∀ doc ∈ docs, Target.inside folder doc.1 =
      ⟨folder ++ [doc.1], .plain, folder.size + 1 + doc.1.utf8ByteSize⟩) :
    (∃ items, Rendered docs items ∧ renderAll folder docs = .ok (targets folder items)) ∨
      ∃ doc ∈ docs, ∃ f, doc.2.render = .error f ∧ renderAll folder docs = .error f := by
  induction docs with
  | nil => exact .inl ⟨[], .nil, rfl⟩
  | cons doc rest ih =>
    obtain ⟨name, d⟩ := doc
    cases hrender : d.render with
    | error f =>
      refine .inr ⟨(name, d), List.mem_cons_self, f, hrender, ?_⟩
      simp only [renderAll, hrender]
      rfl
    | ok text =>
      rcases ih fun other hother => hnames other (List.mem_cons_of_mem _ hother) with
        ⟨items, hitems, -⟩ | ⟨other, hother, f, hf, hrest⟩
      · have hall : Rendered ((name, d) :: rest) ((name, text) :: items) := .cons ⟨rfl, hrender⟩ hitems
        exact .inl ⟨_, hall, renderAll_rendered folder hall hnames⟩
      · refine .inr ⟨other, List.mem_cons_of_mem _ hother, f, hf, ?_⟩
        simp only [renderAll, hrender, hrest]
        rfl

end Snapshot

namespace Journal

open Act (after)
open Snapshot

variable {α : Type}

/-- A flush that the outside accepts has the result of the flush on the disk, and counts when that
returns. -/
theorem go_flush_of_accepted {out : Outside α} {j : Journal α}
    (haccepted : out.flushFault j.flushCalls = none) (folder : Folder)
    (docs : List (String × Document)) :
    let go := (Journal.flush out folder docs).go j
    (go.1 = ((Snapshot.flush folder.path docs).go j.disk).1 ∧
        go.2.disk = ((Snapshot.flush folder.path docs).go j.disk).2) ∧
      (go.1 = .ok () → go.2.flushed = j.flushed + 1) ∧
      ∀ f, go.1 = .error f → go.2.flushed = j.flushed := by
  intro go
  cases hinner : (Snapshot.flush folder.path docs).go j.disk with
  | mk r d =>
    cases r with
    | ok _ =>
      have hgo : go = _ := Journal.go_flush haccepted hinner
      rw [hgo]
      exact ⟨⟨rfl, rfl⟩, fun _ => rfl, fun f h => by cases h⟩
    | error f =>
      have hgo : go = _ := Journal.go_flush_of_failed haccepted hinner
      rw [hgo]
      exact ⟨⟨rfl, rfl⟩, fun h => (by cases h), fun _ _ => rfl⟩

/-- A flush fails before it has touched the disk, or it takes its course. -/
theorem flush_cases (out : Outside α) (folder : Folder) {docs : List (String × Document)}
    (hfamily : PlainFamily (docs.map (·.1))) (j : Journal α) :
    let go := (Journal.flush out folder docs).go j
    (∃ f, (out.flushFault j.flushCalls = some f ∨ ∃ doc ∈ docs, doc.2.render = .error f) ∧
        go.1 = .error f ∧ go.2.disk = j.disk) ∨
      ∃ items steps, Rendered docs items ∧
        Course j.disk (targets folder.path items) steps go.1 ∧ go.2.disk = after j.disk steps := by
  intro go
  cases hrefused : out.flushFault j.flushCalls with
  | some f =>
    have hgo : go = _ := Journal.go_flush_of_refused hrefused
    rw [hgo]
    exact .inl ⟨f, .inl rfl, rfl, rfl⟩
  | none =>
    obtain ⟨⟨hresult, hdisk⟩, -⟩ := go_flush_of_accepted hrefused folder docs
    have hinside : ∀ doc ∈ docs, Target.inside folder.path doc.1 =
        ⟨folder.path ++ [doc.1], .plain, folder.path.size + 1 + doc.1.utf8ByteSize⟩ := by
      intro doc hdoc
      have hname := hfamily.plain doc.1 (List.mem_map_of_mem hdoc)
      exact inside_of_no_slash hname.noSlash hname.nonempty hname.noPoint hname.noStep folder.path
    rcases renderAll_cases folder.path hinside with ⟨items, hitems, hrender⟩ |
      ⟨doc, hdoc, f, hf, hrender⟩
    · obtain ⟨steps, hcourse, hsteps⟩ := flush_course j.disk hrender
      rw [← hresult] at hcourse
      rw [← hdisk] at hsteps
      exact .inr ⟨items, steps, hitems, hcourse, hsteps⟩
    · have hinner : (Snapshot.flush folder.path docs).go j.disk = (.error f, j.disk) := by
        unfold Snapshot.flush
        rw [hrender]
        rfl
      rw [hinner] at hresult hdisk
      exact .inl ⟨f, .inr ⟨doc, hdoc, hf⟩, hresult, hdisk⟩

theorem flushed_of_flush (out : Outside α) (folder : Folder) (docs : List (String × Document))
    (j : Journal α) :
    let go := (Journal.flush out folder docs).go j
    (go.1 = .ok () → go.2.flushed = j.flushed + 1) ∧
    ∀ f, go.1 = .error f → go.2.flushed = j.flushed := by
  intro go
  cases hrefused : out.flushFault j.flushCalls with
  | some f =>
    have hgo : go = _ := Journal.go_flush_of_refused hrefused
    rw [hgo]
    exact ⟨fun h => (by cases h), fun _ _ => rfl⟩
  | none =>
    obtain ⟨-, hcount⟩ := go_flush_of_accepted hrefused folder docs
    exact hcount

/-- A flush fails before it has touched the disk, as it is refused or a document has no text; or it
takes its course and ends as such a flush does. At every moment on the way the first few files are
new as a whole and the others as they were. It counts exactly when it returns. Of what was staged
something is left after a failed staging only where the disk refuses to take a file away. -/
theorem flush_all_or_nothing (out : Outside α) (folder : Folder) {docs : List (String × Document)}
    (hfamily : PlainFamily (docs.map (·.1))) (j : Journal α) :
    let go := (Journal.flush out folder docs).go j
    ((∃ f, (out.flushFault j.flushCalls = some f ∨ ∃ doc ∈ docs, doc.2.render = .error f) ∧
        go.1 = .error f ∧ go.2.disk = j.disk) ∨
      ∃ items steps, Rendered docs items ∧
        Course j.disk (targets folder.path items) steps go.1 ∧ go.2.disk = after j.disk steps ∧
        (∀ n, ∃ k, Moved folder.path items j.disk k (after j.disk (steps.take n))) ∧
        Ended folder.path items j.disk go.1 go.2.disk ∧
        ∀ q, (∀ item ∈ items, q ≠ place folder.path item.1 ∧
            q ≠ place folder.path (waiting item.1)) → Disk.Same [] folder.path j.disk go.2.disk q) ∧
      (go.1 = .ok () → go.2.flushed = j.flushed + 1) ∧
      ∀ f, go.1 = .error f → go.2.flushed = j.flushed := by
  intro go
  refine ⟨?_, flushed_of_flush out folder docs j⟩
  rcases flush_cases out folder hfamily j with hbefore | ⟨items, steps, hitems, hcourse, hsteps⟩
  · exact .inl hbefore
  · rw [← hitems.names] at hfamily
    refine .inr ⟨items, steps, hitems, hcourse, hsteps, hcourse.moments hfamily, ?_, fun q hq => ?_⟩
    · rw [hsteps]
      exact hcourse.ended hfamily
    · rw [hsteps]
      exact hcourse.kept hfamily hq

/-- Two files are to be replaced, and a folder stands in the place of the second one. -/
theorem flush_blocked_by_folder :
    let out : Outside Unit := {
      reply _ _ := ⟨(), .http 500 .empty⟩
      jitter _ := ()
      stopwatch _ := .whole 0
      date _ := 0
      stop _ := false
      disturbance _ := none
      rows := []
      codes _ _ := []
      flushFault _ := none }
    let docs : List (String × Document) := [("a.json", .bool true), ("b.json", .null)]
    let d : Disk := { nodes := [(["out"], .folder), (["out", "a.json"], .file "false"),
      (["out", "b.json"], .folder)] }
    let go := (Journal.flush out ⟨["out"], "out"⟩ docs).go { clock := (), disk := d }
    go.2.disk.get? ["out", "a.json"] = some (.file "true") ∧ go.2.flushed = 0 ∧
      ∃ items, Rendered docs items ∧ Ended ["out"] items d go.1 go.2.disk := by
  intro out docs d go
  have hfamily : PlainFamily (docs.map (·.1)) := by decide
  have hfails : ∃ f, go.1 = .error f := by
    have hnone : go.1.toOption = none := by decide +kernel
    cases hgo : go.1 with
    | error f => exact ⟨f, rfl⟩
    | ok _ =>
      rw [hgo] at hnone
      cases hnone
  obtain ⟨hcases, -, hcount⟩ := flush_all_or_nothing out ⟨["out"], "out"⟩ hfamily
    { clock := (), disk := d }
  obtain ⟨f, hf⟩ := hfails
  refine ⟨by decide +kernel, hcount f hf, ?_⟩
  rcases hcases with ⟨f, hrefused | ⟨doc, hdoc, hrender⟩, -⟩ |
    ⟨items, -, hitems, -, -, -, hended, -⟩
  · cases hrefused
  · simp only [docs, List.mem_cons, List.not_mem_nil, or_false] at hdoc
    rcases hdoc with rfl | rfl <;> cases hrender
  · exact ⟨items, hitems, hended⟩

end Journal

end ProxyCensus
