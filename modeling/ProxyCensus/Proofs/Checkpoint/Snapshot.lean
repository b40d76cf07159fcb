import Mathlib.Data.List.Forall2
import ProxyCensus.Checkpoint.Snapshot
import ProxyCensus.Proofs.Checkpoint.Disk

/-!
# Replaced families of files

What a flush does on a disk where nothing is in its way: no file stands where a folder has to be made,
no folder where a file has to be written, and the paths are short enough. Main statement: the flush
succeeds when every document has a text; then the folder is there, every file holds the text of its
document, no text is left waiting, and nothing else has changed.
-/

namespace ProxyCensus.Snapshot

open Disk (IsName)

/-- The name under which a new text waits. -/
def waiting (name : String) : String :=
  name ++ ".tmp"

/-- A name that stands for one file of a folder, and so does the name under which its text waits. -/
structure FileName (name : String) : Prop where
  inside : ∀ folder, Target.inside folder name =
    ⟨folder ++ [name], .plain, folder.size + 1 + name.utf8ByteSize⟩
  isName : IsName name
  waits : IsName (waiting name)

theorem parts_of_no_slash {name : String} (h : '/' ∉ name.toList) : Path.parts name = [name] := by
  rw [Path.parts, List.splitOn_eq_singleton h]
  simp

theorem startsWith_slash_eq_false {name : String} (h : '/' ∉ name.toList) :
    name.startsWith "/" = false := by
  rw [String.startsWith_string_eq_false_iff]
  rintro ⟨t, ht⟩
  apply h
  rw [← ht]
  simp

theorem endsWith_slash_eq_false {name : String} (h : '/' ∉ name.toList) :
    name.endsWith "/" = false := by
  rw [String.endsWith_eq_endsWith_toSlice, String.Slice.endsWith_string_eq_false_iff]
  rintro ⟨t, ht⟩
  apply h
  simp at ht
  rw [← ht]
  simp

theorem inside_of_no_slash {name : String} (hslash : '/' ∉ name.toList) (hne : name ≠ "")
    (hpoint : name ≠ ".") (hstep : name ≠ "..") (folder : Path) : Target.inside folder name =
      ⟨folder ++ [name], .plain, folder.size + 1 + name.utf8ByteSize⟩ := by
  have hpath : Path.ofText name = [name] := by
    simp [Path.ofText, parts_of_no_slash hslash, hne, hpoint]
  have hending : Ending.ofText name = .plain := by
    simp [Ending.ofText, parts_of_no_slash hslash, hne, hpoint, hstep,
      endsWith_slash_eq_false hslash]
  simp [Target.inside, startsWith_slash_eq_false hslash, hpath, hending]

/-- A name without slashes that is not a point stands for one file of a folder. -/
theorem FileName.of_no_slash {name : String} (hslash : '/' ∉ name.toList) (hne : name ≠ "")
    (hpoint : name ≠ ".") (h : IsName name) (hwaits : IsName (waiting name)) : FileName name :=
  ⟨inside_of_no_slash hslash hne hpoint h.noStep, h, hwaits⟩

theorem staging_concat (folder : Path) (name : String) :
    staging (folder ++ [name]) = folder ++ [waiting name] := by
  simp [staging, waiting]

theorem waiting_inj {a b : String} (h : waiting a = waiting b) : a = b :=
  (String.append_left_inj _).1 h

theorem size_concat (folder : Path) (name : String) :
    Path.size (folder ++ [name]) = folder.size + 1 + name.utf8ByteSize := by
  simp [Path.size]

theorem not_concat_prefix_self (folder : Path) (name : String) : ¬ folder ++ [name] <+: folder := by
  intro h
  have := h.length_le
  simp only [List.length_append, List.length_singleton] at this
  omega

/-- Nothing is in the way of a family of files. -/
structure Ready (d : Disk) (folder : Path) (names : List String) : Prop where
  isName : ∀ n ∈ folder, IsName n
  clear : d.Clear folder
  free : ∀ name ∈ names, d.get? (folder ++ [name]) ≠ some .folder
  freeWaiting : ∀ name ∈ names, d.get? (folder ++ [waiting name]) ≠ some .folder
  grants : ∀ name ∈ names, d.Grants (folder ++ [waiting name])
  short : ∀ name ∈ names, folder.size + 1 + (waiting name).utf8ByteSize ≤ Disk.pathLimit

theorem ready_empty {folder : Path} {names : List String} (hname : ∀ n ∈ folder, IsName n)
    (hshort : ∀ name ∈ names, folder.size + 1 + (waiting name).utf8ByteSize ≤ Disk.pathLimit) :
    Ready {} folder names := by
  refine ⟨hname, fun q _ text => ?_, fun name _ => ?_, fun name _ => ?_, fun _ _ => ⟨rfl, rfl⟩,
    hshort⟩
  · unfold Disk.get?
    split <;> simp
  · simp [Disk.get?]
  · simp [Disk.get?]

theorem size_le_of_waiting {folder : Path} {name : String}
    (h : folder.size + 1 + (waiting name).utf8ByteSize ≤ Disk.pathLimit) :
    folder.size + 1 + name.utf8ByteSize ≤ Disk.pathLimit := by
  have : (waiting name).utf8ByteSize = name.utf8ByteSize + 4 := by
    rw [waiting, String.utf8ByteSize_append]
    rfl
  omega

theorem stage_keeps (target : Path) (text : String) : Act.Keeps Disk.rules (stage target text) :=
  .bind (Disk.makeFolder_keeps _) fun _ => Disk.store_keeps _ text

theorem unstage_keeps (staged : List Target) : Act.Keeps Disk.rules (unstage staged) := by
  induction staged with
  | nil => exact .pure ()
  | cons target rest ih => exact .bind (Disk.remove_keeps _) fun _ => ih

theorem stageAll_keeps (texts : List (Target × String)) :
    ∀ staged : List Target, Act.Keeps Disk.rules (stageAll staged texts) := by
  induction texts with
  | nil => exact fun _ => .pure ()
  | cons t rest ih =>
    intro staged
    refine .bind (.outcome (stage_keeps _ _)) fun r => ?_
    split
    · exact ih _
    · split
      · exact .bind (unstage_keeps staged) fun _ => .throw _
      · exact .throw _

theorem commitAll_keeps (texts : List (Target × String)) : Act.Keeps Disk.rules (commitAll texts) := by
  induction texts with
  | nil => exact .pure ()
  | cons t rest ih => exact .bind (Disk.replace_keeps _ _) fun _ => ih

/-- What a disk refuses and where its names start is the same after a flush, whatever becomes of it. -/
theorem flush_keeps (folder : Path) (docs : List (String × Document)) :
    Act.Keeps Disk.rules (flush folder docs) :=
  .bind (.lift _) fun texts => .bind (stageAll_keeps texts []) fun _ => commitAll_keeps texts

/-- One text is staged: the folders are there, and the text waits. -/
theorem stage_ready {d : Disk} {folder : Path} {names : List String} {name : String}
    (h : Ready d folder names) (hmem : name ∈ names) (hname : FileName name) (text : String) :
    ∃ d', (stage (folder ++ [name]) text).go d = (.ok (), d') ∧
      ∀ q, d'.get? q = if q = folder ++ [waiting name] then some (.file text)
        else if q <+: folder then some .folder else d.get? q := by
  have hshort := h.short name hmem
  obtain ⟨d₁, hgo, hmade⟩ := Disk.makeFolder_clear h.clear h.isName (by omega)
  have hfree : d₁.get? (folder ++ [waiting name]) ≠ some .folder := by
    rw [hmade, if_neg]
    · exact h.freeWaiting name hmem
    · exact not_concat_prefix_self folder _
  have hstore := Disk.store_open text hmade.open hfree 
    ((h.grants name hmem).of_rules ((Disk.makeFolder_keeps folder).of_go hgo))
    (Disk.isName_concat h.isName hname.waits) (by rw [size_concat]; exact hshort)
  refine ⟨d₁.set (folder ++ [waiting name]) (.file text), ?_, fun q => ?_⟩
  · unfold stage
    rw [List.dropLast_concat, staging_concat, Act.go_bind, hgo]
    exact hstore
  · rw [Disk.get?_set (by simp), hmade]

/-- Where the texts of a family are put, and the texts. -/
def targets (folder : Path) (items : List (String × String)) : List (Target × String) :=
  items.map fun item =>
    (⟨folder ++ [item.1], .plain, folder.size + 1 + item.1.utf8ByteSize⟩, item.2)

theorem replace_ready {d : Disk} {folder : Path} {name text : String}
    (hfolder : ∀ n ∈ folder, IsName n) (hopen : d.Open folder) (hname : FileName name)
    (hwaits : d.get? (folder ++ [waiting name]) = some (.file text))
    (hfree : d.get? (folder ++ [name]) ≠ some .folder) (hgrants : d.Grants (folder ++ [waiting name]))
    (hsize : folder.size + 1 + name.utf8ByteSize ≤ Disk.pathLimit) :
    ∃ d', (Disk.replace (staging (folder ++ [name]))
        ⟨folder ++ [name], .plain, folder.size + 1 + name.utf8ByteSize⟩).go d = (.ok (), d') ∧
      ∀ q, d'.get? q = if q = folder ++ [name] then some (.file text)
        else if q = folder ++ [waiting name] then none else d.get? q := by
  have hgo := Disk.replace_open hopen hwaits hfree hgrants
    (Disk.isName_concat hfolder hname.isName) hname.waits hsize
  rw [staging_concat]
  refine ⟨_, hgo, fun q => ?_⟩
  rw [Disk.get?_set (by simp), Disk.get?_erase (by simp)]

/-- The names of a family of files. They stand for different files, and under no name waits the text
of another one. -/
structure Family (names : List String) : Prop where
  fileName : ∀ name ∈ names, FileName name
  distinct : names.Nodup
  apart : ∀ name ∈ names, waiting name ∉ names

theorem Family.tail {name : String} {rest : List String} (h : Family (name :: rest)) :
    Family rest := by
  refine ⟨fun n hn => h.fileName n (List.mem_cons_of_mem _ hn),
    (List.nodup_cons.1 h.distinct).2, fun n hn hw => ?_⟩
  exact h.apart n (List.mem_cons_of_mem _ hn) (List.mem_cons_of_mem _ hw)

/-- The other files of a family are neither the first file nor the text that waits for it, and neither
are the texts that wait for them. -/
theorem ne_of_apart {name : String} {rest : List String} (hdistinct : (name :: rest).Nodup)
    (hapart : ∀ n ∈ name :: rest, waiting n ∉ name :: rest) {n : String} (hn : n ∈ rest) :
    n ≠ name ∧ n ≠ waiting name ∧ waiting n ≠ name ∧ waiting n ≠ waiting name := by
  have hne : n ≠ name := by
    rintro rfl
    exact (List.nodup_cons.1 hdistinct).1 hn
  refine ⟨hne, ?_, ?_, fun hw => hne (waiting_inj hw)⟩
  · rintro rfl
    exact hapart _ List.mem_cons_self (List.mem_cons_of_mem _ hn)
  · intro hw
    exact hapart n (List.mem_cons_of_mem _ hn) (hw ▸ List.mem_cons_self)

theorem Family.others {name : String} {rest : List String} (h : Family (name :: rest)) {n : String}
    (hn : n ∈ rest) :
    n ≠ name ∧ n ≠ waiting name ∧ waiting n ≠ name ∧ waiting n ≠ waiting name :=
  ne_of_apart h.distinct h.apart hn

/-- The disk after some texts were staged. -/
structure Staged (d : Disk) (folder : Path) (items : List (String × String)) (d' : Disk) :
    Prop where
  folders : ∀ q, q <+: folder → items ≠ [] ∨ d.get? q = some .folder → d'.get? q = some .folder
  waits : ∀ item ∈ items, d'.get? (folder ++ [waiting item.1]) = some (.file item.2)
  kept : ∀ q, ¬ q <+: folder → (∀ item ∈ items, q ≠ folder ++ [waiting item.1]) →
    d'.get? q = d.get? q

section Staging

variable {d d₁ d' : Disk} {folder : Path} {item : String × String} {rest : List (String × String)}
  (hget : ∀ q, d₁.get? q = if q = folder ++ [waiting item.1] then some (.file item.2)
    else if q <+: folder then some .folder else d.get? q)

include hget

theorem get?_of_way {q : Path} (hq : q <+: folder) : d₁.get? q = some .folder := by
  rw [hget, if_neg, if_pos hq]
  rintro rfl
  exact not_concat_prefix_self folder _ hq

/-- With one text staged the disk is ready for the rest of the family. -/
theorem Ready.tail (hrules : d₁.rules = d.rules) (h : Ready d folder ((item :: rest).map (·.1))) :
    Ready d₁ folder (rest.map (·.1)) := by
  have hfree : ∀ n, d.get? (folder ++ [n]) ≠ some .folder →
      d₁.get? (folder ++ [n]) ≠ some .folder := by
    intro n hn
    rw [hget, if_neg (not_concat_prefix_self folder n)]
    split
    · simp
    · exact hn
  refine ⟨h.isName, fun q hq text => ?_, fun n hn => hfree n ?_, fun n hn => hfree _ ?_,
    fun n hn => (h.grants n (List.mem_cons_of_mem _ hn)).of_rules hrules,
    fun n hn => h.short n (List.mem_cons_of_mem _ hn)⟩
  · simp [get?_of_way hget hq]
  · exact h.free n (List.mem_cons_of_mem _ hn)
  · exact h.freeWaiting n (List.mem_cons_of_mem _ hn)

theorem Staged.cons (hdistinct : ((item :: rest).map (·.1)).Nodup)
    (h : Staged d₁ folder rest d') : Staged d folder (item :: rest) d' := by
  refine ⟨fun q hq _ => h.folders q hq (.inr (get?_of_way hget hq)), fun i hi => ?_,
    fun q hq hne => ?_⟩
  · rcases List.mem_cons.1 hi with rfl | hi
    · rw [h.kept _ (not_concat_prefix_self folder _), hget, if_pos rfl]
      intro other hother heq
      have hname : i.1 = other.1 := waiting_inj (by simpa using heq)
      exact (List.nodup_cons.1 hdistinct).1 (List.mem_map.2 ⟨other, hother, hname.symm⟩)
    · exact h.waits i hi
  · rw [h.kept q hq fun i hi => hne i (List.mem_cons_of_mem _ hi), hget,
      if_neg (hne item List.mem_cons_self), if_neg hq]

end Staging

theorem stageAll_ready {folder : Path} (items : List (String × String)) :
    ∀ (d : Disk) (done : List Target), Ready d folder (items.map (·.1)) →
      Family (items.map (·.1)) →
      ∃ d', (stageAll done (targets folder items)).go d = (.ok (), d') ∧
        Staged d folder items d' := by
  induction items with
  | nil =>
    intro d done _ _
    exact ⟨d, rfl, fun q _ h => h.resolve_left fun h => h rfl, fun item h => (nomatch h),
      fun q _ _ => rfl⟩
  | cons item rest ih =>
    intro d done hready hfamily
    have hmem : item.1 ∈ (item :: rest).map (·.1) := List.mem_cons_self
    obtain ⟨d₁, hgo, hget⟩ := stage_ready hready hmem (hfamily.fileName _ hmem) item.2
    obtain ⟨d', hgo', hstaged⟩ := ih d₁
      (done ++ [⟨folder ++ [item.1], .plain, folder.size + 1 + item.1.utf8ByteSize⟩])
      (hready.tail hget ((stage_keeps _ _).of_go hgo)) hfamily.tail
    refine ⟨d', ?_, hstaged.cons hget hfamily.distinct⟩
    change Act.go ((stage (folder ++ [item.1]) item.2).outcome >>= _) d = _
    rw [Act.go_bind, Act.go_outcome, hgo]
    exact hgo'

structure Committed (d : Disk) (folder : Path) (items : List (String × String)) (d' : Disk) :
    Prop where
  files : ∀ item ∈ items, d'.get? (folder ++ [item.1]) = some (.file item.2)
  swept : ∀ item ∈ items, d'.get? (folder ++ [waiting item.1]) = none
  kept : ∀ q, (∀ item ∈ items, q ≠ folder ++ [item.1] ∧ q ≠ folder ++ [waiting item.1]) →
    d'.get? q = d.get? q

section Committing

variable {d d₁ d' : Disk} {folder : Path} {item : String × String} {rest : List (String × String)}
  (hfamily : Family ((item :: rest).map (·.1)))
  (hget : ∀ q, d₁.get? q = if q = folder ++ [item.1] then some (.file item.2)
    else if q = folder ++ [waiting item.1] then none else d.get? q)

include hget

omit hfamily in
theorem open_of_moved (h : d.Open folder) : d₁.Open folder := by
  intro q hq
  rw [hget, if_neg, if_neg]
  · exact h q hq
  · rintro rfl
    exact not_concat_prefix_self folder _ hq
  · rintro rfl
    exact not_concat_prefix_self folder _ hq

include hfamily

/-- With one text in place the rest of the family is as it was. -/
theorem get?_of_moved {i : String × String} (hi : i ∈ rest) :
    d₁.get? (folder ++ [i.1]) = d.get? (folder ++ [i.1]) ∧
      d₁.get? (folder ++ [waiting i.1]) = d.get? (folder ++ [waiting i.1]) := by
  obtain ⟨h₁, h₂, h₃, h₄⟩ := hfamily.others (List.mem_map_of_mem hi)
  simp [hget, h₁, h₂, h₃, h₄]

theorem Committed.cons (h : Committed d₁ folder rest d') :
    Committed d folder (item :: rest) d' := by
  have hlast : ∀ q, q = folder ++ [item.1] ∨ q = folder ++ [waiting item.1] →
      d'.get? q = d₁.get? q := by
    intro q hq
    refine h.kept q fun i hi => ?_
    obtain ⟨h₁, h₂, h₃, h₄⟩ := hfamily.others (List.mem_map_of_mem hi)
    rcases hq with rfl | rfl <;> simp [h₁.symm, h₂.symm, h₃.symm, h₄.symm]
  refine ⟨fun i hi => ?_, fun i hi => ?_, fun q hq => ?_⟩
  · rcases List.mem_cons.1 hi with rfl | hi
    · rw [hlast _ (.inl rfl), hget, if_pos rfl]
    · exact h.files i hi
  · rcases List.mem_cons.1 hi with rfl | hi
    · rw [hlast _ (.inr rfl), hget, if_neg, if_pos rfl]
      intro heq
      exact hfamily.apart _ List.mem_cons_self (by simpa using Or.inl (List.append_cancel_left heq))
    · exact h.swept i hi
  · rw [h.kept q fun i hi => hq i (List.mem_cons_of_mem _ hi), hget,
      if_neg (hq item List.mem_cons_self).1, if_neg (hq item List.mem_cons_self).2]

end Committing

theorem commitAll_staged {folder : Path} (hfolder : ∀ n ∈ folder, IsName n)
    (items : List (String × String)) :
    ∀ d : Disk, d.Open folder → Family (items.map (·.1)) →
      (∀ item ∈ items, d.get? (folder ++ [waiting item.1]) = some (.file item.2)) →
      (∀ item ∈ items, d.get? (folder ++ [item.1]) ≠ some .folder) →
      (∀ item ∈ items, d.Grants (folder ++ [waiting item.1])) →
      (∀ item ∈ items, folder.size + 1 + item.1.utf8ByteSize ≤ Disk.pathLimit) →
      ∃ d', (commitAll (targets folder items)).go d = (.ok (), d') ∧
        Committed d folder items d' := by
  induction items with
  | nil =>
    intro d _ _ _ _ _ _
    exact ⟨d, rfl, fun i h => (by cases h), fun i h => (by cases h), fun q _ => rfl⟩
  | cons item rest ih =>
    intro d hopen hfamily hwaits hfree hgrants hsize
    obtain ⟨d₁, hgo, hget⟩ := replace_ready hfolder hopen
      (hfamily.fileName _ List.mem_cons_self) (hwaits item List.mem_cons_self)
      (hfree item List.mem_cons_self) (hgrants item List.mem_cons_self) (hsize item List.mem_cons_self)
    obtain ⟨d', hgo', hcommitted⟩ := ih d₁ (open_of_moved hget hopen) hfamily.tail
      (fun i hi => (get?_of_moved hfamily hget hi).2 ▸ hwaits i (List.mem_cons_of_mem _ hi))
      (fun i hi => (get?_of_moved hfamily hget hi).1 ▸ hfree i (List.mem_cons_of_mem _ hi))
      (fun i hi => (hgrants i (List.mem_cons_of_mem _ hi)).of_rules
        ((Disk.replace_keeps _ _).of_go hgo))
      (fun i hi => hsize i (List.mem_cons_of_mem _ hi))
    refine ⟨d', ?_, hcommitted.cons hfamily hget⟩
    change Act.go (Disk.replace (staging (folder ++ [item.1])) _ >>= _) d = _
    rw [Act.go_bind, hgo]
    exact hgo'

def Rendered (docs : List (String × Document)) (items : List (String × String)) : Prop :=
  List.Forall₂ (fun doc item => item.1 = doc.1 ∧ doc.2.render = .ok item.2) docs items

theorem rendered_of_writable {docs : List (String × Document)}
    (h : ∀ doc ∈ docs, ∃ text, doc.2.render = .ok text) : ∃ items, Rendered docs items := by
  induction docs with
  | nil => exact ⟨[], List.Forall₂.nil⟩
  | cons doc rest ih =>
    obtain ⟨text, htext⟩ := h doc List.mem_cons_self
    obtain ⟨items, hitems⟩ := ih fun other hother => h other (List.mem_cons_of_mem _ hother)
    exact ⟨(doc.1, text) :: items, List.Forall₂.cons ⟨rfl, htext⟩ hitems⟩

theorem Rendered.names {docs : List (String × Document)} {items : List (String × String)}
    (h : Rendered docs items) : items.map (·.1) = docs.map (·.1) := by
  induction h with
  | nil => rfl
  | cons h _ ih => simp [h.1, ih]

theorem Rendered.exists_item {docs : List (String × Document)} {items : List (String × String)}
    (h : Rendered docs items) {doc : String × Document} (hdoc : doc ∈ docs) :
    ∃ item ∈ items, item.1 = doc.1 ∧ doc.2.render = .ok item.2 := by
  induction h with
  | nil => cases hdoc
  | cons h _ ih =>
    rcases List.mem_cons.1 hdoc with rfl | hdoc
    · exact ⟨_, List.mem_cons_self, h⟩
    · obtain ⟨item, hitem, hr⟩ := ih hdoc
      exact ⟨item, List.mem_cons_of_mem _ hitem, hr⟩

theorem renderAll_rendered (folder : Path) {docs : List (String × Document)}
    {items : List (String × String)} (h : Rendered docs items)
    (hnames : ∀ doc ∈ docs, Target.inside folder doc.1 =
      ⟨folder ++ [doc.1], .plain, folder.size + 1 + doc.1.utf8ByteSize⟩) :
    renderAll folder docs = .ok (targets folder items) := by
  induction h with
  | nil => rfl
  | @cons doc item docs items h _ ih =>
    obtain ⟨name, d⟩ := doc
    obtain ⟨name', text⟩ := item
    obtain ⟨rfl, hr⟩ := h
    have hrest := ih fun other hother => hnames other (List.mem_cons_of_mem _ hother)
    simp only [renderAll, hr, hrest, hnames _ List.mem_cons_self]
    rfl

/-- A folder holds the documents of a family, and no text waits to replace one of them. -/
structure Holds (d : Disk) (folder : Path) (docs : List (String × Document)) : Prop where
  files : ∀ doc ∈ docs, ∃ text, doc.2.render = .ok text ∧
    d.get? (folder ++ [doc.1]) = some (.file text)
  swept : ∀ doc ∈ docs, d.get? (folder ++ [waiting doc.1]) = none

theorem Holds.get?_eq {d d' : Disk} {folder : Path} {docs : List (String × Document)}
    (h : Holds d folder docs)
    (h' : Holds d' folder docs) : ∀ name ∈ docs.map (·.1), d.get? (folder ++ [name]) =
      d'.get? (folder ++ [name]) := by
  intro name hname
  obtain ⟨doc, hdoc, rfl⟩ := List.mem_map.1 hname
  obtain ⟨text, htext, hget⟩ := h.files doc hdoc
  obtain ⟨text', htext', hget'⟩ := h'.files doc hdoc
  obtain rfl := Except.ok.inj (htext.symm.trans htext')
  rw [hget, hget']

/-- What a flush leaves: the folder with the documents, and everything else as it was. -/
structure Flushed (d : Disk) (folder : Path) (docs : List (String × Document)) (d' : Disk) :
    Prop extends Holds d' folder docs where
  folders : docs ≠ [] → d'.Open folder
  kept : ∀ q, ¬ q <+: folder →
    (∀ doc ∈ docs, q ≠ folder ++ [doc.1] ∧ q ≠ folder ++ [waiting doc.1]) → d'.get? q = d.get? q
  rules : d'.rules = d.rules

theorem Committed.flushed {d d₁ d' : Disk} {folder : Path} {docs : List (String × Document)}
    {items : List (String × String)} (h : Committed d₁ folder items d')
    (hstaged : Staged d folder items d₁)
    (hopen : d₁.Open folder) (hitems : Rendered docs items) (hrules : d'.rules = d.rules) :
    Flushed d folder docs d' := by
  refine ⟨⟨fun doc hdoc => ?_, fun doc hdoc => ?_⟩, fun _ q hq => ?_, fun q hq hne => ?_, hrules⟩
  · obtain ⟨item, hitem, hname, hr⟩ := hitems.exists_item hdoc
    exact ⟨item.2, hr, hname ▸ h.files item hitem⟩
  · obtain ⟨item, hitem, hname, -⟩ := hitems.exists_item hdoc
    exact hname ▸ h.swept item hitem
  · rw [h.kept]
    · exact hopen q hq
    · intro item _
      constructor
      · rintro rfl
        exact not_concat_prefix_self folder _ hq
      · rintro rfl
        exact not_concat_prefix_self folder _ hq
  · have hne' : ∀ item ∈ items, q ≠ folder ++ [item.1] ∧ q ≠ folder ++ [waiting item.1] := by
      intro item hitem
      have hmem : item.1 ∈ docs.map (·.1) := hitems.names ▸ List.mem_map_of_mem hitem
      obtain ⟨doc, hdoc, hname⟩ := List.mem_map.1 hmem
      exact hname ▸ hne doc hdoc
    rw [h.kept q hne', hstaged.kept q hq fun item hitem => (hne' item hitem).2]

/-- With nothing in its way a flush succeeds when every document has a text. -/
theorem flush_ready {d : Disk} {folder : Path} {docs : List (String × Document)}
    (hready : Ready d folder (docs.map (·.1))) (hfamily : Family (docs.map (·.1)))
    (hdocs : ∀ doc ∈ docs, ∃ text, doc.2.render = .ok text) :
    ∃ d', (flush folder docs).go d = (.ok (), d') ∧ Flushed d folder docs d' := by
  obtain ⟨items, hitems⟩ := rendered_of_writable hdocs
  have hnames := hitems.names
  have hrender := renderAll_rendered folder hitems fun doc hdoc =>
    (hfamily.fileName _ (List.mem_map_of_mem hdoc)).inside folder
  obtain ⟨d₁, hgo₁, hstaged⟩ := stageAll_ready items d [] (hnames ▸ hready) (hnames ▸ hfamily)
  by_cases hnil : items = []
  · subst hnil
    have hdocs : docs = [] := by cases hitems; rfl
    subst hdocs
    exact ⟨d, rfl, ⟨fun doc h => (nomatch h), fun doc h => (nomatch h)⟩, fun h => absurd rfl h,
      fun q _ _ => rfl, rfl⟩
  have hopen : d₁.Open folder := fun q hq => hstaged.folders q hq (.inl hnil)
  have hfree : ∀ item ∈ items, d₁.get? (folder ++ [item.1]) ≠ some .folder := by
    intro item hitem
    have hmem : item.1 ∈ docs.map (·.1) := hnames ▸ List.mem_map_of_mem hitem
    rw [hstaged.kept _ (not_concat_prefix_self folder _)]
    · exact hready.free _ hmem
    · intro other hother h
      have h : item.1 = waiting other.1 := by simpa using h
      exact hfamily.apart other.1 (hnames ▸ List.mem_map_of_mem hother) (h ▸ hmem)
  obtain ⟨d', hgo', hcommitted⟩ := commitAll_staged hready.isName items d₁ hopen
    (hnames ▸ hfamily) hstaged.waits hfree
    (fun item hitem => (hready.grants _ (hnames ▸ List.mem_map_of_mem hitem)).of_rules
      ((stageAll_keeps _ []).of_go hgo₁))
    fun item hitem => size_le_of_waiting (hready.short _ (hnames ▸ List.mem_map_of_mem hitem))
  have hgo : (flush folder docs).go d = (.ok (), d') := by
    unfold flush
    rw [hrender]
    change Act.go (stageAll [] (targets folder items) >>= _) d = _
    rw [Act.go_bind, hgo₁]
    exact hgo'
  exact ⟨d', hgo, hcommitted.flushed hstaged hopen hitems ((flush_keeps folder docs).of_go hgo)⟩

theorem Flushed.ready {d d' : Disk} {folder : Path} {docs : List (String × Document)}
    (h : Flushed d folder docs d') (hready : Ready d folder (docs.map (·.1))) (hne : docs ≠ []) :
    Ready d' folder (docs.map (·.1)) := by
  refine ⟨hready.isName, (h.folders hne).clear, fun name hname => ?_, fun name hname => ?_,
    fun name hname => (hready.grants name hname).of_rules h.rules, hready.short⟩
  · obtain ⟨doc, hdoc, rfl⟩ := List.mem_map.1 hname
    obtain ⟨text, -, hget⟩ := h.files doc hdoc
    simp [hget]
  · obtain ⟨doc, hdoc, rfl⟩ := List.mem_map.1 hname
    simp [h.swept doc hdoc]

end ProxyCensus.Snapshot
