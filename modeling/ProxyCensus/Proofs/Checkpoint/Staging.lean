import ProxyCensus.Proofs.Checkpoint.Course
import ProxyCensus.Proofs.Checkpoint.Footprint
import ProxyCensus.Proofs.Checkpoint.Snapshot

/-!
# Staged and moved texts

What staging, sweeping and moving the texts of a family do on a disk in any state. Main statements: what
was staged waits, what waits can be taken away again, and what waits is moved into place unless a folder
stands there; everything else stays as it was, but for folders that have to be made.
-/

namespace ProxyCensus.Snapshot

open Act (after Succeed FailsAt)
open Disk (Leads Same Under tooLong)

/-- A text that names a file of a folder, and nothing else. -/
structure PlainName (name : String) : Prop where
  noSlash : '/' ∉ name.toList
  nonempty : name ≠ ""
  noPoint : name ≠ "."
  noStep : name ≠ ".."
  noNull : '\x00' ∉ name.toList
  noHalf : Text.hasHalf name = false

instance (name : String) : Decidable (PlainName name) :=
  decidable_of_iff ('/' ∉ name.toList ∧ name ≠ "" ∧ name ≠ "." ∧ name ≠ ".." ∧
      '\x00' ∉ name.toList ∧ Text.hasHalf name = false)
    ⟨fun ⟨noSlash, nonempty, noPoint, noStep, noNull, noHalf⟩ =>
        ⟨noSlash, nonempty, noPoint, noStep, noNull, noHalf⟩,
      fun h => ⟨h.noSlash, h.nonempty, h.noPoint, h.noStep, h.noNull, h.noHalf⟩⟩

/-- Distinct names of files, none of which is the name under which the text of another one waits. -/
structure PlainFamily (names : List String) : Prop where
  plain : ∀ name ∈ names, PlainName name
  distinct : names.Nodup
  apart : ∀ name ∈ names, waiting name ∉ names

instance (names : List String) : Decidable (PlainFamily names) :=
  decidable_of_iff ((∀ name ∈ names, PlainName name) ∧ names.Nodup ∧
      ∀ name ∈ names, waiting name ∉ names)
    ⟨fun ⟨plain, distinct, apart⟩ => ⟨plain, distinct, apart⟩,
      fun h => ⟨h.plain, h.distinct, h.apart⟩⟩

theorem PlainFamily.tail {name : String} {rest : List String} (h : PlainFamily (name :: rest)) :
    PlainFamily rest := by
  refine ⟨fun n hn => h.plain n (List.mem_cons_of_mem _ hn), (List.nodup_cons.1 h.distinct).2, ?_⟩
  intro n hn hw
  exact h.apart n (List.mem_cons_of_mem _ hn) (List.mem_cons_of_mem _ hw)

/-- Where a name leads from the end of a way, which may hold steps back. -/
def place (folder : Path) (name : String) : Path :=
  folder.collapse ++ [name]

theorem place_ne {folder : Path} {a b : String} (h : a ≠ b) : place folder a ≠ place folder b := by
  simpa [place] using h

theorem enter_eq_place {folder : Path} {name : String} (h : name ≠ "..") :
    (folder.foldl Path.enter []).enter name = place folder name := by
  simp [Path.enter, h, place, Path.collapse]

theorem length_waiting (name : String) : (waiting name).length = name.length + 4 := by
  rw [waiting, String.length_append]
  rfl

theorem waiting_ne_step (name : String) : waiting name ≠ ".." := by
  intro h
  have hlength := length_waiting name
  rw [h] at hlength
  have : (".." : String).length = 2 := rfl
  omega

/-- A text waits, the way to it is open, and nothing is wrong with the name under which it waits. -/
structure Waits (folder : Path) (d : Disk) (item : String × String) : Prop where
  leads : d.Leads [] folder
  short : tooLong (waiting item.1) = false
  noNull : folder.hasNull = false
  size : folder.size + 1 + (waiting item.1).utf8ByteSize ≤ Disk.pathLimit
  text : d.get? (place folder (waiting item.1)) = some (.file item.2)

theorem Waits.mono {folder : Path} {d d' : Disk} {item : String × String}
    (h : Waits folder d item) (hunder : d.Under d')
    (hsame : Same [] folder d d' (place folder (waiting item.1))) : Waits folder d' item :=
  { h with leads := h.leads.mono hunder, text := hsame.get h.text }

theorem check_eq_ok_iff {p : Path} {size : Nat} :
    Disk.check p size = .ok () ↔ p.hasNull = false ∧ size ≤ Disk.pathLimit := by
  unfold Disk.check
  cases p.hasNull <;> simp

theorem hasNull_concat (p : Path) (name : String) :
    Path.hasNull (p ++ [name]) = (p.hasNull || name.toList.contains '\x00') := by
  simp [Path.hasNull]

/-- Staging a text changes nothing but the place where it is to wait and missing folders on the way;
when it fails it does not change that place either, unless the disk refuses texts there. -/
theorem stage_cases (folder : Path) (item : String × String) (d : Disk) :
    let go := (stage (folder ++ [item.1]) item.2).go d
    (go.1 = .ok () ∧ Waits folder go.2 item ∧ d.Under go.2 ∧
        ∀ q, q ≠ place folder (waiting item.1) → Same [] folder d go.2 q) ∨
      (∃ f, go.1 = .error f ∧
          (f.isSystem = true ∨ (folder ++ [waiting item.1]).hasNull = true)) ∧
        d.Under go.2 ∧ ∀ q, (q = place folder (waiting item.1) → d.shortage q = none) →
          Same [] folder d go.2 q := by
  obtain ⟨hsame, hleads, hfails⟩ := Disk.makeFolder_same folder d
  have hrules := Disk.makeFolder_keeps folder d
  unfold stage
  rw [List.dropLast_concat, staging_concat, Act.go_bind]
  generalize (Disk.makeFolder folder).go d = made at hsame hleads hfails hrules
  obtain ⟨r, d₁⟩ := made
  cases r with
  | error f =>
    refine .inr ⟨⟨f, rfl, (hfails f rfl).imp_right fun hnull => ?_⟩, Disk.under_of_same hsame,
      fun q _ => hsame q⟩
    rw [hasNull_concat, hnull]
    rfl
  | ok _ =>
    dsimp only
    rcases Disk.store_cases (folder ++ [waiting item.1]) item.2 d₁ with
      ⟨f, hstore, hsystem⟩ | ⟨target, hcheck, hwalk, hfree, hstore⟩
    · rw [hstore]
      exact .inr ⟨⟨f, rfl, hsystem⟩, Disk.under_of_same hsame, fun q _ => hsame q⟩
    · obtain ⟨-, hshort, rfl⟩ := Disk.walk_concat_iff.1 hwalk
      rw [enter_eq_place (waiting_ne_step _)] at hfree hstore
      have hget := fun text => Disk.get?_set (Disk.ne_nil_of_get?_ne hfree) (d := d₁) (.file text)
      have hunder := Disk.under_set_file hfree
      have hrest : ∀ text q, q ≠ place folder (waiting item.1) →
          Same [] folder d (d₁.set (place folder (waiting item.1)) (.file text)) q :=
        fun text q hq => (hsame q).trans (.inl (by rw [hget, if_neg hq]))
      rcases hstore with hstore | ⟨hshortage, part, hstore⟩
      · rw [hstore]
        have hnull := check_eq_ok_iff.1 hcheck
        rw [hasNull_concat, Bool.or_eq_false_iff, size_concat] at hnull
        refine .inl ⟨rfl, ⟨(hleads rfl).mono (hunder _), hshort, hnull.1.1, hnull.2, ?_⟩,
          (Disk.under_of_same hsame).trans (hunder _), hrest _⟩
        rw [hget, if_pos rfl]
      · rw [hstore]
        refine .inr ⟨⟨_, rfl, .inl rfl⟩, (Disk.under_of_same hsame).trans (hunder _), fun q hq => ?_⟩
        refine hrest _ q fun heq => hshortage ?_
        rw [← heq, Disk.shortage_of_rules hrules, hq heq]

theorem stage_same (folder : Path) (item : String × String) (d : Disk) {q : Path}
    (hq : q ≠ place folder (waiting item.1)) :
    Same [] folder d ((stage (folder ++ [item.1]) item.2).go d).2 q := by
  rcases stage_cases folder item d with ⟨-, -, -, h⟩ | ⟨-, -, h⟩
  · exact h q hq
  · exact h q fun heq => absurd heq hq

theorem stage_under (folder : Path) (item : String × String) (d : Disk) :
    d.Under ((stage (folder ++ [item.1]) item.2).go d).2 := by
  rcases stage_cases folder item d with ⟨-, -, h, -⟩ | ⟨-, h, -⟩
  · exact h
  · exact h

/-- Taking away a text changes nothing but the place where it waits. -/
theorem sweep_cases (folder : Path) (name : String) (d : Disk) :
    ((Disk.remove (folder ++ [waiting name])).go d).2 = d ∨
      (∃ text, d.get? (place folder (waiting name)) = some (.file text)) ∧
        ((Disk.remove (folder ++ [waiting name])).go d).2 = d.erase (place folder (waiting name)) := by
  rcases Disk.remove_cases (folder ++ [waiting name]) d with ⟨hgo, -⟩ |
    ⟨target, text, hwalk, hget, hgo⟩
  · rw [hgo]
    exact .inl rfl
  · obtain ⟨-, -, rfl⟩ := Disk.walk_concat_iff.1 hwalk
    rw [enter_eq_place (waiting_ne_step _)] at hget hgo
    rw [hgo]
    split
    · exact .inl rfl
    · exact .inr ⟨⟨text, hget⟩, rfl⟩

theorem sweep_get (folder : Path) (name : String) (d : Disk) {q : Path}
    (hq : q ≠ place folder (waiting name)) :
    ((Disk.remove (folder ++ [waiting name])).go d).2.get? q = d.get? q := by
  rcases sweep_cases folder name d with hgo | ⟨⟨text, hget⟩, hgo⟩
  · rw [hgo]
  · rw [hgo, Disk.get?_erase (Disk.ne_nil_of_get?_ne (d := d) (by simp [hget])), if_neg hq]

theorem sweep_under (folder : Path) (name : String) (d : Disk) :
    d.Under ((Disk.remove (folder ++ [waiting name])).go d).2 := by
  rcases sweep_cases folder name d with hgo | ⟨⟨text, hget⟩, hgo⟩
  · rw [hgo]
    exact fun q hq => hq
  · rw [hgo]
    intro q hq
    rw [Disk.get?_erase (Disk.ne_nil_of_get?_ne (d := d) (by simp [hget])), if_neg]
    · exact hq
    · rintro rfl
      rw [hget] at hq
      cases hq

/-- A text that waits is taken away, unless the disk holds it. -/
theorem go_sweep {folder : Path} {d : Disk} {item : String × String} (h : Waits folder d item) :
    (Disk.remove (folder ++ [waiting item.1])).go d =
      if d.held (place folder (waiting item.1)) then (.error (.disk .denied), d)
      else (.ok (), d.erase (place folder (waiting item.1))) := by
  have hwalk : d.walk [] (folder ++ [waiting item.1]) = .ok (place folder (waiting item.1)) :=
    Disk.walk_concat_iff.2 ⟨h.leads, h.short, (enter_eq_place (waiting_ne_step _)).symm⟩
  rcases Disk.remove_cases (folder ++ [waiting item.1]) d with ⟨-, hno⟩ |
    ⟨target, text, hwalk', -, hgo⟩
  · exact absurd h.text (hno _ _ hwalk)
  · obtain rfl := Except.ok.inj (hwalk.symm.trans hwalk')
    exact hgo

theorem sweep_waits {folder : Path} {d : Disk} {item : String × String} (h : Waits folder d item)
    (hok : ((Disk.remove (folder ++ [waiting item.1])).go d).1 = .ok ()) :
    ((Disk.remove (folder ++ [waiting item.1])).go d).2.get? (place folder (waiting item.1)) =
      none := by
  rw [go_sweep h] at hok ⊢
  split at hok
  · cases hok
  · rw [if_neg ‹_›, Disk.get?_erase (Disk.ne_nil_of_get?_ne (d := d) (by simp [h.text])), if_pos rfl]

theorem tooLong_of_waiting {name : String} (h : tooLong (waiting name) = false) :
    tooLong name = false := by
  simp only [tooLong, decide_eq_false_iff_not, Nat.not_lt, waiting, String.utf8ByteSize_append] at h ⊢
  omega

/-- Why a text that waits is not moved into place: a folder stands there, or the disk holds the text. -/
inductive Obstacle (folder : Path) (name : String) (d : Disk) : Failure → Prop
  | folder (h : d.get? (place folder name) = some .folder) : Obstacle folder name d (.disk .isFolder)
  | held (h : d.held (place folder (waiting name)) = true) : Obstacle folder name d (.disk .denied)

/-- A text that waits is moved into place, unless a folder stands there or the disk holds the text. -/
theorem go_move {folder : Path} {d : Disk} {item : String × String} (h : Waits folder d item)
    (hname : PlainName item.1) :
    (Disk.replace (folder ++ [waiting item.1])
        ⟨folder ++ [item.1], .plain, folder.size + 1 + item.1.utf8ByteSize⟩).go d =
      if d.get? (place folder item.1) = some .folder then (.error (.disk .isFolder), d)
      else if d.held (place folder (waiting item.1)) then (.error (.disk .denied), d)
      else (.ok (), (d.erase (place folder (waiting item.1))).set (place folder item.1)
        (.file item.2)) := by
  refine Disk.go_replace ?_ ?_ ?_ h.text
  · refine check_eq_ok_iff.2 ⟨?_, size_le_of_waiting h.size⟩
    simp [hasNull_concat, h.noNull, hname.noNull]
  · exact Disk.walk_concat_iff.2 ⟨h.leads, h.short, (enter_eq_place (waiting_ne_step _)).symm⟩
  · exact Disk.walk_concat_iff.2 ⟨h.leads, tooLong_of_waiting h.short,
      (enter_eq_place hname.noStep).symm⟩

theorem stagings_targets (folder : Path) (items : List (String × String)) :
    stagings (targets folder items) = items.map fun item => stage (folder ++ [item.1]) item.2 := by
  simp [stagings, targets]

theorem sweeps_targets (folder : Path) (items : List (String × String)) :
    sweeps (targets folder items) =
      items.map fun item => Disk.remove (folder ++ [waiting item.1]) := by
  simp [sweeps, targets, staging_concat]

theorem moves_targets (folder : Path) (items : List (String × String)) :
    moves (targets folder items) = items.map fun item => Disk.replace (folder ++ [waiting item.1])
      ⟨folder ++ [item.1], .plain, folder.size + 1 + item.1.utf8ByteSize⟩ := by
  simp [moves, targets, staging_concat]

/-- Whatever a flush does, what the disk refuses stays the same. -/
theorem after_rules {texts : List (Target × String)} {steps : List (Act Disk Unit)}
    (hsteps : ∀ x ∈ steps, x ∈ stagings texts ∨ x ∈ sweeps texts ∨ x ∈ moves texts) (d : Disk) :
    (after d steps).rules = d.rules := by
  refine Act.after_rel (R := fun d d' => d'.rules = d.rules) (fun _ => rfl)
    (fun {d₁ d₂ d₃} (h : d₂.rules = d₁.rules) (h' : d₃.rules = d₂.rules) => h'.trans h)
    (fun x hx => ?_) d
  rcases hsteps x hx with hx | hx | hx
  · obtain ⟨t, -, rfl⟩ := List.mem_map.1 hx
    exact stage_keeps t.1.path t.2
  · obtain ⟨t, -, rfl⟩ := List.mem_map.1 hx
    exact Disk.remove_keeps _
  · obtain ⟨t, -, rfl⟩ := List.mem_map.1 hx
    exact Disk.replace_keeps _ _

/-- Staging and sweeping the texts of a family changes nothing but the places where they wait. -/
theorem after_same {folder : Path} {items : List (String × String)} {steps : List (Act Disk Unit)}
    (hsteps : ∀ x ∈ steps, x ∈ stagings (targets folder items) ∨ x ∈ sweeps (targets folder items))
    {q : Path} (hq : ∀ item ∈ items, q ≠ place folder (waiting item.1)) (d : Disk) :
    Same [] folder d (after d steps) q := by
  refine Act.after_rel (R := fun d d' => Same [] folder d d' q) (fun d => .refl _ _ d q) .trans
    (fun x hx d => ?_) d
  rw [stagings_targets, sweeps_targets] at hsteps
  rcases hsteps x hx with hx | hx
  · obtain ⟨item, hitem, rfl⟩ := List.mem_map.1 hx
    exact stage_same folder item d (hq item hitem)
  · obtain ⟨item, hitem, rfl⟩ := List.mem_map.1 hx
    exact .inl (sweep_get folder item.1 d (hq item hitem))

theorem stagings_under (folder : Path) (items : List (String × String)) (d : Disk) :
    d.Under (after d (stagings (targets folder items))) := by
  refine Act.after_rel (R := Under) (fun _ _ hq => hq) .trans (fun x hx d => ?_) d
  rw [stagings_targets] at hx
  obtain ⟨item, -, rfl⟩ := List.mem_map.1 hx
  exact stage_under folder item d

theorem place_waiting_ne {folder : Path} {name : String} {items : List (String × String)}
    (h : name ∉ items.map (·.1)) :
    ∀ item ∈ items, place folder (waiting name) ≠ place folder (waiting item.1) := by
  intro item hitem
  refine place_ne fun heq => h ?_
  rw [waiting_inj heq]
  exact List.mem_map_of_mem hitem

theorem waits_of_staged {folder : Path} {items : List (String × String)} :
    ∀ {d : Disk}, (items.map (·.1)).Nodup → Succeed d (stagings (targets folder items)) →
      ∀ item ∈ items, Waits folder (after d (stagings (targets folder items))) item := by
  induction items with
  | nil =>
    intro d _ _ item hitem
    cases hitem
  | cons first rest ih =>
    intro d hdistinct h item hitem
    obtain ⟨hfirst, hrest⟩ := List.nodup_cons.1 hdistinct
    obtain _ | ⟨hok, hsucceed⟩ := h
    change Waits folder (after ((stage (folder ++ [first.1]) first.2).go d).2 _) item
    rcases List.mem_cons.1 hitem with rfl | hitem
    · rcases stage_cases folder item d with ⟨-, hwaits, -, -⟩ | ⟨⟨f, hf, -⟩, -⟩
      · exact hwaits.mono (stagings_under folder rest _)
          (after_same (fun _ => .inl) (place_waiting_ne hfirst) _)
      · exact absurd (hok.symm.trans hf) (by simp)
    · exact ih hrest hsucceed item hitem

theorem sweeps_take_get {folder : Path} {items : List (String × String)} {q : Path}
    (hq : ∀ item ∈ items, q ≠ place folder (waiting item.1)) (n : Nat) (d : Disk) :
    (after d ((sweeps (targets folder items)).take n)).get? q = d.get? q := by
  refine Act.after_rel (R := fun d d' => d'.get? q = d.get? q) (fun _ => rfl)
    (fun {d₁ d₂ d₃} (h : d₂.get? q = d₁.get? q) (h' : d₃.get? q = d₂.get? q) => h'.trans h)
    (fun x hx d => ?_) d
  rw [sweeps_targets] at hx
  obtain ⟨item, hitem, rfl⟩ := List.mem_map.1 (List.mem_of_mem_take hx)
  exact sweep_get folder item.1 d (hq item hitem)

theorem sweeps_get {folder : Path} {items : List (String × String)} {q : Path}
    (hq : ∀ item ∈ items, q ≠ place folder (waiting item.1)) (d : Disk) :
    (after d (sweeps (targets folder items))).get? q = d.get? q := by
  have h := sweeps_take_get hq (sweeps (targets folder items)).length d
  rwa [List.take_length] at h

/-- The texts that wait go on waiting while the text of another file is taken away. -/
theorem waits_of_sweep {folder : Path} {d : Disk} {first : String × String}
    {rest : List (String × String)} (hfirst : first.1 ∉ rest.map (·.1))
    (h : ∀ item ∈ first :: rest, Waits folder d item) :
    ∀ item ∈ rest, Waits folder ((Disk.remove (folder ++ [waiting first.1])).go d).2 item :=
  fun item hitem => (h item (List.mem_cons_of_mem _ hitem)).mono (sweep_under folder first.1 d)
    (.inl (sweep_get folder first.1 d (place_waiting_ne hfirst item hitem).symm))

theorem swept_of_waits {folder : Path} {items : List (String × String)} :
    ∀ {d : Disk}, (items.map (·.1)).Nodup → (∀ item ∈ items, Waits folder d item) →
      Succeed d (sweeps (targets folder items)) → ∀ item ∈ items,
        (after d (sweeps (targets folder items))).get? (place folder (waiting item.1)) = none := by
  induction items with
  | nil =>
    intro d _ _ _ item hitem
    cases hitem
  | cons first rest ih =>
    intro d hdistinct h hsucceed item hitem
    obtain ⟨hfirst, hrest⟩ := List.nodup_cons.1 hdistinct
    rw [sweeps_targets, List.map_cons] at hsucceed ⊢
    obtain _ | ⟨hok, hswept⟩ := hsucceed
    rw [Act.after_cons]
    rw [← sweeps_targets] at hswept ⊢
    rcases List.mem_cons.1 hitem with rfl | hitem
    · rw [sweeps_get (place_waiting_ne hfirst)]
      exact sweep_waits (h _ List.mem_cons_self) hok
    · exact ih hrest (waits_of_sweep hfirst h) hswept item hitem

/-- Of the texts that wait only one that the disk holds is not taken away. Those before it are gone
then. -/
theorem held_of_sweeps {folder : Path} {items : List (String × String)} :
    ∀ {d : Disk} {k : Nat} {g : Failure}, (items.map (·.1)).Nodup →
      (∀ item ∈ items, Waits folder d item) → FailsAt d (sweeps (targets folder items)) k g →
      g = .disk .denied ∧
        (∃ item, items[k]? = some item ∧ d.held (place folder (waiting item.1)) = true) ∧
        ∀ item ∈ items.take k, (after d ((sweeps (targets folder items)).take (k + 1))).get?
          (place folder (waiting item.1)) = none := by
  induction items with
  | nil =>
    intro d k g _ _ h
    cases h
  | cons first rest ih =>
    intro d k g hdistinct hwaits h
    obtain ⟨hfirst, hrest⟩ := List.nodup_cons.1 hdistinct
    rw [sweeps_targets, List.map_cons] at h ⊢
    cases h with
    | here hfails =>
      rw [go_sweep (hwaits _ List.mem_cons_self)] at hfails
      split at hfails
      · exact ⟨(Except.error.inj hfails).symm, ⟨first, rfl, ‹_›⟩,
          fun item hitem => by cases hitem⟩
      · cases hfails
    | later hok hlater =>
      rw [← sweeps_targets] at hlater
      obtain ⟨hg, ⟨item, hitem, hheld⟩, hgone⟩ := ih hrest (waits_of_sweep hfirst hwaits) hlater
      rw [Disk.held_of_rules (Disk.remove_keeps _ d)] at hheld
      refine ⟨hg, ⟨item, hitem, hheld⟩, fun other hother => ?_⟩
      rw [List.take_succ_cons, Act.after_cons, ← sweeps_targets]
      rw [List.take_succ_cons] at hother
      rcases List.mem_cons.1 hother with rfl | hother
      · rw [sweeps_take_get (place_waiting_ne hfirst)]
        exact sweep_waits (hwaits _ List.mem_cons_self) hok
      · exact hgone other hother

/-- What moving texts into place changes. -/
structure Landed (folder : Path) (items : List (String × String)) (d d' : Disk) : Prop where
  moved : ∀ item ∈ items, d'.get? (place folder item.1) = some (.file item.2)
  swept : ∀ item ∈ items, d'.get? (place folder (waiting item.1)) = none
  kept : ∀ q, (∀ item ∈ items, q ≠ place folder item.1 ∧ q ≠ place folder (waiting item.1)) →
    d'.get? q = d.get? q
  under : d.Under d'

theorem landed_of_move {folder : Path} {d : Disk} {item : String × String}
    (h : Waits folder d item) (hname : PlainName item.1) (hapart : waiting item.1 ≠ item.1)
    (hok : ((Disk.replace (folder ++ [waiting item.1])
      ⟨folder ++ [item.1], .plain, folder.size + 1 + item.1.utf8ByteSize⟩).go d).1 = .ok ()) :
    Landed folder [item] d ((Disk.replace (folder ++ [waiting item.1])
      ⟨folder ++ [item.1], .plain, folder.size + 1 + item.1.utf8ByteSize⟩).go d).2 := by
  rw [go_move h hname] at hok ⊢
  by_cases hfolder : d.get? (place folder item.1) = some .folder
  · rw [if_pos hfolder] at hok
    cases hok
  · rw [if_neg hfolder] at hok ⊢
    split at hok
    · cases hok
    rw [if_neg ‹_›]
    have hget : ∀ q, ((d.erase (place folder (waiting item.1))).set (place folder item.1)
        (.file item.2)).get? q = if q = place folder item.1 then some (.file item.2)
          else if q = place folder (waiting item.1) then none else d.get? q := by
      intro q
      rw [Disk.get?_set (Disk.ne_nil_of_get?_ne hfolder),
        Disk.get?_erase (Disk.ne_nil_of_get?_ne (d := d) (by simp [h.text]))]
    constructor
    · intro other hother
      rw [List.mem_singleton.1 hother, hget, if_pos rfl]
    · intro other hother
      rw [List.mem_singleton.1 hother, hget, if_neg (place_ne hapart), if_pos rfl]
    · intro q hq
      obtain ⟨hplace, hwaiting⟩ := hq item (List.mem_singleton_self item)
      rw [hget, if_neg hplace, if_neg hwaiting]
    · intro q hq
      rw [hget, if_neg, if_neg]
      · exact hq
      · rintro rfl
        rw [h.text] at hq
        cases hq
      · rintro rfl
        exact hfolder hq

theorem Landed.cons {folder : Path} {first : String × String} {rest : List (String × String)}
    {d d₁ d' : Disk} (hfamily : PlainFamily ((first :: rest).map (·.1)))
    (h : Landed folder [first] d d₁) (hrest : Landed folder rest d₁ d') :
    Landed folder (first :: rest) d d' := by
  have hne : ∀ item ∈ rest, item.1 ≠ first.1 ∧ item.1 ≠ waiting first.1 ∧
      waiting item.1 ≠ first.1 ∧ waiting item.1 ≠ waiting first.1 :=
    fun item hitem => ne_of_apart hfamily.distinct hfamily.apart (List.mem_map_of_mem hitem)
  have hfirst := List.mem_singleton_self first
  constructor
  · intro item hitem
    rcases List.mem_cons.1 hitem with rfl | hitem
    · rw [hrest.kept, h.moved item hfirst]
      exact fun other hother =>
        ⟨place_ne (hne other hother).1.symm, place_ne (hne other hother).2.2.1.symm⟩
    · exact hrest.moved item hitem
  · intro item hitem
    rcases List.mem_cons.1 hitem with rfl | hitem
    · rw [hrest.kept, h.swept item hfirst]
      exact fun other hother =>
        ⟨place_ne (hne other hother).2.1.symm, place_ne (hne other hother).2.2.2.symm⟩
    · exact hrest.swept item hitem
  · intro q hq
    rw [hrest.kept q fun item hitem => hq item (List.mem_cons_of_mem _ hitem), h.kept]
    intro item hitem
    rw [List.mem_singleton.1 hitem]
    exact hq first List.mem_cons_self
  · exact h.under.trans hrest.under

theorem Landed.waits {folder : Path} {first : String × String} {rest : List (String × String)}
    {d d₁ : Disk} (hfamily : PlainFamily ((first :: rest).map (·.1))) (h : Landed folder [first] d d₁)
    (hwaits : ∀ item ∈ first :: rest, Waits folder d item) :
    ∀ item ∈ rest, Waits folder d₁ item := by
  intro item hitem
  obtain ⟨-, -, hne, hwaiting⟩ := ne_of_apart hfamily.distinct hfamily.apart (List.mem_map_of_mem hitem)
  refine (hwaits item (List.mem_cons_of_mem _ hitem)).mono h.under (.inl (h.kept _ ?_))
  intro other hother
  rw [List.mem_singleton.1 hother]
  exact ⟨place_ne hne, place_ne hwaiting⟩

/-- The texts that waited and were moved are in place, and nothing else has changed. -/
theorem landed_of_moves {folder : Path} {items : List (String × String)} :
    ∀ {d : Disk}, PlainFamily (items.map (·.1)) → (∀ item ∈ items, Waits folder d item) →
      Succeed d (moves (targets folder items)) →
      Landed folder items d (after d (moves (targets folder items))) := by
  induction items with
  | nil =>
    intro d _ _ _
    exact ⟨by simp, by simp, fun q _ => rfl, fun _ hq => hq⟩
  | cons first rest ih =>
    intro d hfamily hwaits h
    rw [moves_targets, List.map_cons] at h ⊢
    obtain _ | ⟨hok, hrest⟩ := h
    have hlanded := landed_of_move (hwaits first List.mem_cons_self)
      (hfamily.plain _ List.mem_cons_self)
      (fun heq => hfamily.apart first.1 List.mem_cons_self (heq.symm ▸ List.mem_cons_self)) hok
    refine hlanded.cons hfamily ?_
    rw [← moves_targets] at hrest ⊢
    exact ih hfamily.tail (hlanded.waits hfamily hwaits) hrest

end ProxyCensus.Snapshot
