import ProxyCensus.Proofs.Act
import ProxyCensus.Proofs.Checkpoint.Disk

/-!
# What operations on a disk change

Operations that may fail, on a disk in any state and along any way, steps back included. Main
statements: making folders changes nothing but missing folders on the way, the other operations
change nothing but the places that they name, and every folder that is there stays.
-/

namespace ProxyCensus.Disk

/-- Names lead from a folder on through folders that are there. -/
def Leads (d : Disk) (here : Path) : Path → Prop
  | [] => True
  | name :: rest =>
    tooLong name = false ∧ d.get? (here.enter name) = some .folder ∧ d.Leads (here.enter name) rest

/-- The folders of one disk are folders of another. -/
def Under (d d' : Disk) : Prop :=
  ∀ q, d.get? q = some .folder → d'.get? q = some .folder

theorem Under.trans {d d' d'' : Disk} (h : d.Under d') (h' : d'.Under d'') : d.Under d'' :=
  fun q hq => h' q (h q hq)

theorem Leads.mono {d d' : Disk} (h : d.Under d') {way : Path} :
    ∀ {here : Path}, d.Leads here way → d'.Leads here way := by
  induction way with
  | nil => exact fun _ => trivial
  | cons name rest ih =>
    rintro here ⟨hshort, hfolder, hrest⟩
    exact ⟨hshort, h _ hfolder, ih hrest⟩

theorem walk_cons {name : String} {rest : Path} (hrest : rest ≠ []) (d : Disk) (here : Path) :
    d.walk here (name :: rest) =
      if tooLong name then .error (.disk .nameTooLong)
      else match d.get? (here.enter name) with
        | some .folder => d.walk (here.enter name) rest
        | some (.file _) => .error (.disk .notFolder)
        | none => .error (.disk .notFound) := by
  cases rest with
  | nil => exact absurd rfl hrest
  | cons _ _ => rfl

/-- A way is walked to its end exactly when all folders before its last name are there. -/
theorem walk_concat_iff {d : Disk} {way : Path} {name : String} {place : Path} :
    ∀ {here : Path}, d.walk here (way ++ [name]) = .ok place ↔
      d.Leads here way ∧ tooLong name = false ∧ place = (way.foldl Path.enter here).enter name := by
  induction way with
  | nil =>
    intro here
    cases h : tooLong name <;> simp [walk, Leads, h, eq_comm]
  | cons n rest ih =>
    intro here
    rw [List.cons_append, walk_cons (by simp), List.foldl_cons]
    cases hn : tooLong n with
    | true => simp [Leads, hn]
    | false =>
      cases hget : d.get? (here.enter n) with
      | none => simp [Leads, hget]
      | some node =>
        cases node with
        | file text => simp [Leads, hget]
        | folder => simp [Leads, hn, hget, ih]

/-- A place on a way. -/
def OnWay (here way q : Path) : Prop :=
  ∃ p, p <+: way ∧ q = p.foldl Path.enter here

theorem OnWay.cons {here way q : Path} {name : String} (h : OnWay (here.enter name) way q) :
    OnWay here (name :: way) q := by
  obtain ⟨p, hp, rfl⟩ := h
  exact ⟨name :: p, (List.prefix_cons_inj name).2 hp, rfl⟩

theorem onWay_enter (here way : Path) (name : String) : OnWay here (name :: way) (here.enter name) :=
  ⟨[name], ⟨way, rfl⟩, rfl⟩

/-- From one disk to another a place has stayed as it was, unless it was a missing folder on a way
and has been made. -/
def Same (here way : Path) (d d' : Disk) (q : Path) : Prop :=
  d'.get? q = d.get? q ∨ OnWay here way q ∧ d.get? q = none ∧ d'.get? q = some .folder

theorem Same.refl (here way : Path) (d : Disk) (q : Path) : Same here way d d q := .inl rfl

theorem Same.trans {here way q : Path} {d d' d'' : Disk} (h : Same here way d d' q)
    (h' : Same here way d' d'' q) : Same here way d d'' q := by
  rcases h with h | ⟨hway, hnone, hmade⟩
  · rcases h' with h' | ⟨hway, hnone, hmade⟩
    · exact .inl (h'.trans h)
    · exact .inr ⟨hway, h ▸ hnone, hmade⟩
  · rcases h' with h' | ⟨-, hnone', -⟩
    · exact .inr ⟨hway, hnone, h'.trans hmade⟩
    · rw [hmade] at hnone'
      cases hnone'

theorem Same.get {here way q : Path} {d d' : Disk} (h : Same here way d d' q) {node : Node}
    (hget : d.get? q = some node) : d'.get? q = some node := by
  rcases h with h | ⟨-, hnone, -⟩
  · exact h.trans hget
  · rw [hget] at hnone
    cases hnone

theorem Same.file {here way q : Path} {d d' : Disk} (h : Same here way d d' q) {text : String}
    (hget : d'.get? q = some (.file text)) : d.get? q = some (.file text) := by
  rcases h with h | ⟨-, -, hmade⟩
  · rwa [← h]
  · rw [hmade] at hget
    cases hget

theorem under_of_same {here way : Path} {d d' : Disk} (h : ∀ q, Same here way d d' q) :
    d.Under d' :=
  fun q => (h q).get

theorem ne_nil_of_get?_ne {d : Disk} {q : Path} (h : d.get? q ≠ some .folder) : q ≠ [] := by
  rintro rfl
  exact h rfl

theorem under_set_file {d : Disk} {q : Path} (h : d.get? q ≠ some .folder) (text : String) :
    d.Under (d.set q (.file text)) := by
  intro p hp
  rw [get?_set (ne_nil_of_get?_ne h), if_neg]
  · exact hp
  · rintro rfl
    exact h hp

theorem same_set_folder {d : Disk} {q : Path} (h : d.get? q = none) {here way : Path}
    (hway : OnWay here way q) (p : Path) : Same here way d (d.set q .folder) p := by
  have hq : q ≠ [] := ne_nil_of_get?_ne (d := d) (by simp [h])
  rw [Same, get?_set hq]
  by_cases hp : p = q
  · rw [hp]
    exact .inr ⟨hway, h, if_pos rfl⟩
  · exact .inl (if_neg hp)

/-- Making folders changes nothing but missing folders on the way, and leads to the last of them. -/
theorem makeFrom_same (way : Path) : ∀ (made : Bool) (here : Path) (d : Disk),
    let go := (makeFrom made here way).go d
    (∀ q, Same here way d go.2 q) ∧ (go.1 = .ok () → go.2.Leads here way) := by
  induction way with
  | nil => exact fun _ _ d => ⟨Same.refl _ _ d, fun _ => trivial⟩
  | cons name rest ih =>
    intro made here d
    have hrest : ∀ (made : Bool) (d₁ : Disk), d₁.get? (here.enter name) = some .folder →
        (∀ q, Same here (name :: rest) d d₁ q) → tooLong name = false →
        let go := (makeFrom made (here.enter name) rest).go d₁
        (∀ q, Same here (name :: rest) d go.2 q) ∧
          (go.1 = .ok () → go.2.Leads here (name :: rest)) := by
      intro made d₁ hfolder hsame hshort
      obtain ⟨hrest, hleads⟩ := ih made (here.enter name) d₁
      refine ⟨fun q => (hsame q).trans ((hrest q).imp_right fun ⟨hway, h⟩ => ⟨hway.cons, h⟩),
        fun hok => ⟨hshort, (hrest _).get hfolder, hleads hok⟩⟩
    rw [go_makeFrom]
    cases hshort : tooLong name with
    | true => exact ⟨Same.refl _ _ d, fun h => by cases h⟩
    | false =>
      simp only [Bool.false_eq_true, if_false]
      cases hget : d.get? (here.enter name) with
      | none =>
        refine hrest true _ ?_ (same_set_folder hget (onWay_enter here rest name)) hshort
        rw [get?_set (ne_nil_of_get?_ne (d := d) (by simp [hget])), if_pos rfl]
      | some node =>
        cases node with
        | file text => exact ⟨Same.refl _ _ d, fun h => by cases h⟩
        | folder => exact hrest made d hget (Same.refl _ _ d) hshort

theorem isSystem_of_check {p : Path} {size : Nat} {f : Failure} (h : check p size = .error f) :
    f.isSystem = true ∨ p.hasNull = true := by
  unfold check at h
  split at h
  · exact .inr ‹_›
  · split at h
    · obtain rfl := Except.error.inj h
      exact .inl rfl
    · cases h

theorem isSystem_of_walk {d : Disk} {way : Path} {f : Failure} :
    ∀ {here : Path}, d.walk here way = .error f → f.isSystem = true := by
  induction way with
  | nil =>
    intro here h
    cases h
  | cons name rest ih =>
    intro here h
    by_cases hrest : rest = []
    · subst hrest
      unfold walk at h
      split at h
      · obtain rfl := Except.error.inj h
        rfl
      · cases h
    · rw [walk_cons hrest] at h
      split at h
      · obtain rfl := Except.error.inj h
        rfl
      · split at h
        · exact ih h
        · obtain rfl := Except.error.inj h
          rfl
        · obtain rfl := Except.error.inj h
          rfl

theorem isSystem_of_makeFrom {way : Path} {f : Failure} :
    ∀ {made : Bool} {here : Path} {d : Disk}, ((makeFrom made here way).go d).1 = .error f →
      f.isSystem = true := by
  induction way with
  | nil =>
    intro made here d h
    cases h
  | cons name rest ih =>
    intro made here d h
    rw [go_makeFrom] at h
    split at h
    · obtain rfl := Except.error.inj h
      rfl
    · split at h
      · exact ih h
      · obtain rfl := Except.error.inj h
        rfl
      · exact ih h

theorem makeFolder_same (folder : Path) (d : Disk) :
    let go := (makeFolder folder).go d
    (∀ q, Same [] folder d go.2 q) ∧ (go.1 = .ok () → go.2.Leads [] folder) ∧
      ∀ f, go.1 = .error f → f.isSystem = true ∨ folder.hasNull = true := by
  unfold makeFolder
  rw [Act.go_bind, Act.go_lift]
  cases hcheck : check folder folder.size with
  | error f =>
    refine ⟨Same.refl _ _ d, fun h => (by cases h), fun g hg => ?_⟩
    obtain rfl := Except.error.inj hg
    exact isSystem_of_check hcheck
  | ok _ =>
    obtain ⟨hsame, hleads⟩ := makeFrom_same folder false [] d
    exact ⟨hsame, hleads, fun f hf => .inl (isSystem_of_makeFrom hf)⟩

/-- Storing a file changes nothing but its place, in which no folder may stand. When the disk is full,
a part of the text stays there. -/
theorem store_cases (p : Path) (text : String) (d : Disk) :
    (∃ f, (store p text).go d = (.error f, d) ∧ (f.isSystem = true ∨ p.hasNull = true)) ∨
      ∃ place, check p p.size = .ok () ∧ d.walk [] p = .ok place ∧ d.get? place ≠ some .folder ∧
        ((store p text).go d = (.ok (), d.set place (.file text)) ∨
          d.shortage place ≠ none ∧
            ∃ part, (store p text).go d = (.error (.disk .full), d.set place (.file part))) := by
  unfold store
  rw [Act.go_bind, Act.go_lift]
  cases hcheck : check p p.size with
  | error f => exact .inl ⟨f, rfl, isSystem_of_check hcheck⟩
  | ok _ =>
    dsimp only
    rw [Act.go_bind, Act.go_state]
    dsimp only
    rw [Act.go_bind, Act.go_lift]
    cases hwalk : d.walk [] p with
    | error f => exact .inl ⟨f, rfl, .inl (isSystem_of_walk hwalk)⟩
    | ok place =>
      dsimp only
      cases hfolder : d.isFolder place with
      | true => exact .inl ⟨_, rfl, .inl rfl⟩
      | false =>
        have hfree : d.get? place ≠ some .folder := by simpa [isFolder] using hfolder
        rw [if_neg Bool.false_ne_true]
        rcases hshortage : d.shortage place with _ | _ | room
        · exact .inr ⟨place, rfl, rfl, hfree, .inl rfl⟩
        · exact .inl ⟨_, rfl, .inl rfl⟩
        · refine .inr ⟨place, rfl, rfl, hfree, ?_⟩
          dsimp only
          rw [Act.go_bind, Act.go_change]
          dsimp only
          by_cases hroom : room < text.length
          · rw [if_pos hroom]
            exact .inr ⟨by simp [hshortage], _, rfl⟩
          · have hwhole : text.toList.take room = text.toList :=
              List.take_of_length_le (by rwa [String.length_toList, ← Nat.not_lt])
            rw [if_neg hroom, hwhole, String.ofList_toList]
            exact .inl rfl

/-- Taking away what is no file changes nothing, and a file goes unless the disk holds it. -/
theorem remove_cases (p : Path) (d : Disk) :
    ((remove p).go d = (.ok (), d) ∧
        ∀ place text, d.walk [] p = .ok place → d.get? place ≠ some (.file text)) ∨
      ∃ place text, d.walk [] p = .ok place ∧ d.get? place = some (.file text) ∧
        (remove p).go d =
          if d.held place then (.error (.disk .denied), d) else (.ok (), d.erase place) := by
  unfold remove
  rw [Act.go_bind, Act.go_state]
  dsimp only
  cases hwalk : d.walk [] p with
  | error f => exact .inl ⟨rfl, fun place text h => by cases h⟩
  | ok place =>
    dsimp only
    rcases hget : d.get? place with _ | _ | text
    · refine .inl ⟨by simp [isFile, hget], fun place' text h => ?_⟩
      rw [← Except.ok.inj h, hget]
      simp
    · refine .inl ⟨by simp [isFile, hget], fun place' text h => ?_⟩
      rw [← Except.ok.inj h, hget]
      simp
    · refine .inr ⟨place, text, rfl, hget, ?_⟩
      rw [if_pos (by simp [isFile, hget])]
      cases d.held place <;> simp

theorem eq_collapse_of_walk {d : Disk} {p place : Path} (h : d.walk [] p = .ok place) :
    place = p.collapse := by
  rcases List.eq_nil_or_concat p with rfl | ⟨way, name, rfl⟩
  · exact (Except.ok.inj h).symm
  · rw [List.concat_eq_append] at h
    obtain ⟨-, -, hplace⟩ := walk_concat_iff.1 h
    simp [hplace, Path.collapse]

/-- Adding a text to a file changes nothing but the place to which the way leads. -/
theorem get?_append (p : Path) (text : String) (d : Disk) {q : Path} (hq : q ≠ p.collapse) :
    ((append p text).go d).2.get? q = d.get? q := by
  have hset : ∀ place node, d.walk [] p = .ok place → d.get? place ≠ some .folder →
      (d.set place node).get? q = d.get? q := by
    intro place node hwalk hfree
    rw [get?_set (ne_nil_of_get?_ne hfree), if_neg (eq_collapse_of_walk hwalk ▸ hq)]
  unfold append
  rw [Act.go_bind, Act.go_lift]
  cases check p p.size with
  | error f => rfl
  | ok _ =>
    dsimp only
    rw [Act.go_bind, Act.go_state]
    dsimp only
    rw [Act.go_bind, Act.go_lift]
    cases hwalk : d.walk [] p with
    | error f => rfl
    | ok place =>
      dsimp only
      rcases hget : d.get? place with _ | _ | earlier
      · exact hset place _ hwalk (by simp [hget])
      · rfl
      · exact hset place _ hwalk (by simp [hget])

/-- A file that waits in its place is moved, unless a folder stands where it is to go or the disk holds
it. -/
theorem go_replace {d : Disk} {source p origin place : Path} {size : Nat} {text : String}
    (hcheck : check p size = .ok ()) (hsource : d.walk [] source = .ok origin)
    (hplace : d.walk [] p = .ok place) (hget : d.get? origin = some (.file text)) :
    (replace source ⟨p, .plain, size⟩).go d =
      if d.get? place = some .folder then (.error (.disk .isFolder), d)
      else if d.held origin then (.error (.disk .denied), d)
      else (.ok (), (d.erase origin).set place (.file text)) := by
  unfold replace
  dsimp only
  rw [hcheck]
  change Act.go (Act.lift (d.walk [] source) >>= _) d = _
  rw [hsource]
  change Act.go (Act.lift (d.walk [] p) >>= _) d = _
  rw [hplace]
  simp only [Act.go_bind, Act.go_lift, hget]
  by_cases hfolder : d.get? place = some .folder
  · rw [show d.isFolder place = true by simpa [isFolder] using hfolder, if_pos hfolder]
    rfl
  · rw [show d.isFolder place = false by simpa [isFolder] using hfolder, if_neg hfolder]
    cases d.held origin <;> simp

end ProxyCensus.Disk
