import ProxyCensus.Proofs.Checkpoint.Flush

/-!
# What a folder shows after some flushes

Flushes of one family of files, one after another, of which some fail. Main statement: as long as no
folder stands in the place of a file and the disk holds no text that waits, the files are those of the
last flush that succeeded, nothing is left waiting that did not wait before, and everything else is as it
was, but for folders on the way. Where the disk refuses texts, a part of one may be left.
-/

namespace ProxyCensus

namespace Snapshot

open Act (after FailsAt Succeed)
open Disk (OnWay Same)

/-- No folder stands in the place of a file, none has to be made there on the way, and the disk lets a
text that waits for it go. -/
def Unblocked (folder : Path) (names : List String) (d : Disk) : Prop :=
  ∀ name ∈ names, d.get? (place folder name) ≠ some .folder ∧
    ¬OnWay [] folder (place folder name) ∧ d.held (place folder (waiting name)) = false

/-- From one disk to another the files of a folder have become those of some documents, or stayed as
they were if there are none; no text waits that did not, but for what is left of one that the disk
refused, and no other place has changed. -/
structure Shown (folder : Path) (names : List String) (before : Disk)
    (docs? : Option (List (String × Document))) (d : Disk) : Prop where
  files : match docs? with
    | some docs => ∃ items, Rendered docs items ∧ items.map (·.1) = names ∧
        ∀ item ∈ items, d.get? (place folder item.1) = some (.file item.2)
    | none => ∀ name ∈ names, Same [] folder before d (place folder name)
  waiting : ∀ name ∈ names, before.shortage (place folder (waiting name)) = none → ∀ text,
    d.get? (place folder (waiting name)) = some (.file text) →
      before.get? (place folder (waiting name)) = some (.file text)
  kept : ∀ q,
    (∀ name ∈ names, q ≠ place folder name ∧ q ≠ place folder (Snapshot.waiting name)) →
    Same [] folder before d q
  rules : d.rules = before.rules

variable {folder : Path} {names : List String}

theorem foldl_enter {way : Path} (h : ".." ∉ way) :
    ∀ here : Path, way.foldl Path.enter here = here ++ way := by
  induction way with
  | nil => exact fun here => (List.append_nil here).symm
  | cons name rest ih =>
    intro here
    rw [List.mem_cons, not_or] at h
    have henter : here.enter name = here ++ [name] := by simp [Path.enter, Ne.symm h.1]
    rw [List.foldl_cons, ih h.2, henter, List.append_assoc]
    rfl

/-- When the way to a folder has no steps back, no folder on it stands in the place of a file. -/
theorem unblocked_of_straight {d : Disk} (hway : ".." ∉ folder)
    (hfree : ∀ name ∈ names, d.get? (place folder name) ≠ some .folder)
    (hheld : ∀ name ∈ names, d.held (place folder (waiting name)) = false) :
    Unblocked folder names d := by
  refine fun name hname => ⟨hfree name hname, ?_, hheld name hname⟩
  rintro ⟨p, hp, hplace⟩
  rw [place, Path.collapse, foldl_enter hway, foldl_enter fun h => hway (hp.subset h)] at hplace
  have hlength := congrArg List.length hplace
  simp only [List.nil_append, List.length_append, List.length_singleton] at hlength
  have hle := hp.length_le
  omega

theorem Shown.refl (folder : Path) (names : List String) (d : Disk) : Shown folder names d none d :=
  ⟨fun _ _ => .refl .., fun _ _ _ _ => id, fun _ _ => .refl .., rfl⟩

/-- What was shown first stays unless something is shown later. -/
theorem Shown.trans {d d' d'' : Disk} {first later : Option (List (String × Document))}
    (h : Shown folder names d first d') (h' : Shown folder names d' later d'') :
    Shown folder names d (later.or first) d'' := by
  refine ⟨?_, fun name hname hgrant text hw => h.waiting name hname hgrant text
      (h'.waiting name hname (Disk.shortage_of_rules h.rules ▸ hgrant) text hw),
    fun q hq => (h.kept q hq).trans (h'.kept q hq), h'.rules.trans h.rules⟩
  have hfiles := h.files
  have hfiles' := h'.files
  cases later with
  | some docs => exact hfiles'
  | none =>
    cases first with
    | none => exact fun name hname => (hfiles name hname).trans (hfiles' name hname)
    | some docs =>
      obtain ⟨items, hitems, hnames, hshown⟩ := hfiles
      refine ⟨items, hitems, hnames, fun item hitem => (hfiles' item.1 ?_).get (hshown item hitem)⟩
      rw [← hnames]
      exact List.mem_map_of_mem hitem

variable {items : List (String × String)} {d : Disk}

/-- When a text is not staged, no place has changed but those where the texts before it wait, as far as
the disk refuses no texts there. -/
theorem kept_of_failsAt {i : Nat} {f : Failure}
    (h : FailsAt d (stagings (targets folder items)) i f) {q : Path}
    (hq : ∀ item ∈ items.take i, q ≠ place folder (waiting item.1)) (hgrant : d.shortage q = none) :
    Same [] folder d (after d ((stagings (targets folder items)).take (i + 1) ++
      if f.isSystem then sweeps ((targets folder items).take i) else [])) q := by
  have hbefore : Same [] folder d (after d ((stagings (targets folder items)).take i)) q := by
    rw [stagings_take]
    exact after_same (fun _ => .inl) hq d
  obtain ⟨item, -, -, -, hfailed⟩ := unstaged_of_failsAt h
  have hswept : ∀ d', Same [] folder d' (after d'
      (if f.isSystem then sweeps (targets folder (items.take i)) else [])) q := by
    refine fun d' => after_same (fun y hy => ?_) hq d'
    split at hy
    · exact .inr hy
    · cases hy
  rw [Act.after_append, targets_take]
  exact hbefore.trans ((hfailed q fun _ => hgrant).trans (hswept _))

theorem Moved.same {d' : Disk} (h : Moved folder items d 0 d') :
    ∀ name ∈ items.map (·.1), Same [] folder d d' (place folder name) := by
  intro name hname
  obtain ⟨item, hitem, rfl⟩ := List.mem_map.1 hname
  exact h.kept item hitem

/-- A place that keeps its file or is not on the way is no folder after a flush unless it was one. -/
theorem Unblocked.of_same {d' : Disk} (h : Unblocked folder names d) (hrules : d'.rules = d.rules)
    (hsame : ∀ name ∈ names, d'.get? (place folder name) ≠ some .folder ∨
      Same [] folder d d' (place folder name)) : Unblocked folder names d' := by
  refine fun name hname => ⟨?_, (h name hname).2.1, Disk.held_of_rules hrules ▸ (h name hname).2.2⟩
  rcases hsame name hname with hfree | hget | ⟨hway, -⟩
  · exact hfree
  · rw [hget]
    exact (h name hname).1
  · exact absurd hway (h name hname).2.1

/-- Where nothing is in the way of the files, no move fails. -/
theorem Unblocked.not_failsAt_moves (hfree : Unblocked folder (items.map (·.1)) d)
    (hfamily : PlainFamily (items.map (·.1))) (hstaged : Succeed d (stagings (targets folder items)))
    {i : Nat} {f : Failure} :
    ¬ FailsAt (after d (stagings (targets folder items))) (moves (targets folder items)) i f := by
  intro hfails
  obtain ⟨⟨item, hitem, hblocked⟩, -⟩ := blocked_of_failsAt hfamily hstaged hfails
  have hdrop : item ∈ items.drop i := by
    rw [← List.head?_drop] at hitem
    exact List.mem_of_head? hitem
  obtain ⟨hplace, hway, hlets⟩ := hfree item.1 (List.mem_map_of_mem (List.mem_of_mem_drop hdrop))
  cases hblocked with
  | folder hblocked =>
    rcases (moved_of_moves hfamily hstaged hfails.succeed_take).kept item hdrop with hget | ⟨hmade, -⟩
    · exact absurd (hget.symm.trans hblocked) hplace
    · exact absurd hmade hway
  | held hheld =>
    rw [Disk.held_of_rules (after_rules (fun x hx => .inr (.inr (List.mem_of_mem_take hx))) _),
      Disk.held_of_rules (after_rules (fun x => .inl) d), hlets] at hheld
    cases hheld

/-- A flush that is not blocked returns or fails before its first move. -/
theorem Course.shown (hfamily : PlainFamily (items.map (·.1))) {docs : List (String × Document)}
    (hitems : Rendered docs items) (hfree : Unblocked folder (items.map (·.1)) d)
    {steps : List (Act Disk Unit)} {r : Except Failure Unit}
    (h : Course d (targets folder items) steps r) :
    Shown folder (items.map (·.1)) d (if r.isOk then some docs else none) (after d steps) ∧
      Unblocked folder (items.map (·.1)) (after d steps) := by
  have hkept : ∀ q, (∀ name ∈ items.map (·.1), q ≠ place folder name ∧
      q ≠ place folder (waiting name)) → Same [] folder d (after d steps) q := fun q hq =>
    h.kept hfamily fun item hitem => hq item.1 (List.mem_map_of_mem hitem)
  have hrules := h.rules
  cases h with
  | @unstaged i f hfails hswept =>
    have hmoved : Moved folder items d 0 (after d ((stagings (targets folder items)).take (i + 1) ++
        if f.isSystem then sweeps ((targets folder items).take i) else [])) :=
      moved_zero hfamily fun x => mem_of_unstaged
    have hfiles := hmoved.same
    refine ⟨⟨hfiles, fun name hname hgrant text htext => ?_, hkept, hrules⟩,
      hfree.of_same hrules fun name hname => .inr (hfiles name hname)⟩
    obtain ⟨item, hitem, rfl⟩ := List.mem_map.1 hname
    by_cases hmem : item ∈ items.take i
    · rw [swept_of_failsAt hfamily hfails hswept item hmem] at htext
      cases htext
    · refine Same.file (kept_of_failsAt hfails (fun other hother => place_ne fun heq => ?_) hgrant) htext
      have hdrop : item ∈ items.drop i := by
        rw [← List.take_append_drop i items] at hitem
        exact (List.mem_append.1 hitem).resolve_left hmem
      exact hfamily.ne_of_drop_take hdrop hother (waiting_inj heq)
  | unswept hfails hsystem hrefused =>
    obtain ⟨-, -, ⟨item, hitem, hheld⟩, -⟩ := held_of_failsAt hfamily hfails hrefused
    have hfree := (hfree item.1 (List.mem_map_of_mem (List.mem_of_getElem? hitem))).2.2
    exact absurd (hfree.symm.trans hheld) Bool.false_ne_true
  | unmoved hstaged hfails => exact absurd hfails (hfree.not_failsAt_moves hfamily hstaged)
  | done hstaged h =>
    have hended := (Course.done hstaged h).ended hfamily
    cases hended with
    | done files swept =>
      have hfiles := files.moved
      rw [List.take_length] at hfiles
      refine ⟨⟨⟨items, hitems, rfl, hfiles⟩, fun name hname _ text htext => ?_, hkept, hrules⟩,
        hfree.of_same hrules fun name hname => .inl ?_⟩
      · obtain ⟨item, hitem, rfl⟩ := List.mem_map.1 hname
        rw [swept item hitem] at htext
        cases htext
      · obtain ⟨item, hitem, rfl⟩ := List.mem_map.1 hname
        rw [hfiles item hitem]
        simp

end Snapshot

namespace Journal

open Snapshot

/-- What a folder shows after a flush that is not blocked. -/
theorem flush_shown {α : Type} (out : Outside α) (folder : Folder) {docs : List (String × Document)}
    (hfamily : PlainFamily (docs.map (·.1))) {j : Journal α}
    (hfree : Unblocked folder.path (docs.map (·.1)) j.disk) :
    let go := (Journal.flush out folder docs).go j
    Shown folder.path (docs.map (·.1)) j.disk (if go.1.isOk then some docs else none) go.2.disk ∧
      Unblocked folder.path (docs.map (·.1)) go.2.disk := by
  intro go
  rcases flush_cases out folder hfamily j with
    ⟨f, -, hresult, hdisk⟩ | ⟨items, steps, hitems, hcourse, hsteps⟩
  · rw [hresult, hdisk]
    exact ⟨.refl .., hfree⟩
  · rw [hsteps]
    rw [← hitems.names] at hfamily hfree ⊢
    exact hcourse.shown hfamily hitems hfree

end Journal

end ProxyCensus
