import ProxyCensus.Checkpoint.Disk
import ProxyCensus.Proofs.Act

/-!
# Files and folders

What the operations on a disk do along a way that nothing blocks. Main statements: folders are made
as far as they are missing, a file is stored in its place, and a file takes the place of another one;
in each case everything else stays as it was.
-/

namespace ProxyCensus.Disk

/-- A name of a file or folder: it leads to no other folder, is not too long, and holds no null
character. -/
structure IsName (name : String) : Prop where
  noStep : name ≠ ".."
  short : tooLong name = false
  noNull : '\x00' ∉ name.toList

instance (name : String) : Decidable (IsName name) :=
  decidable_of_iff (name ≠ ".." ∧ tooLong name = false ∧ '\x00' ∉ name.toList)
    ⟨fun ⟨noStep, short, noNull⟩ => ⟨noStep, short, noNull⟩,
      fun h => ⟨h.noStep, h.short, h.noNull⟩⟩

theorem get?_set {d : Disk} {p : Path} (hp : p ≠ []) (n : Node) (q : Path) :
    (d.set p n).get? q = if q = p then some n else d.get? q := by
  have h := Ledger.get?_updateEntries p q (fun _ => n) d.nodes
  have hbeq : ∀ q : Path, (fun e : Path × Node => decide (e.1 = q)) = fun e => e.1 == q := by
    intro q
    funext e
    rw [Bool.eq_iff_iff]
    simp
  simp only [Ledger.get?, hbeq] at h
  by_cases hq : q = []
  · subst hq
    simp [get?, hp.symm]
  · simpa [get?, set, hq] using h

theorem get?_erase {d : Disk} {p : Path} (hp : p ≠ []) (q : Path) :
    (d.erase p).get? q = if q = p then none else d.get? q := by
  by_cases hq : q = []
  · subst hq
    simp [get?, hp.symm]
  · have hfind : (d.nodes.filter (·.1 != p)).find? (·.1 == q) =
        if q = p then none else d.nodes.find? (·.1 == q) := by
      rw [List.find?_filter]
      by_cases hqp : q = p
      · rw [if_pos hqp, List.find?_eq_none]
        intro e _
        simp [hqp]
      · rw [if_neg hqp]
        congr 1
        funext e
        by_cases he : e.1 = q
        · simp [he, hqp]
        · simp [he]
    simp only [get?, erase, List.isEmpty_iff, hq, if_false, hfind]
    split <;> rfl

theorem enter_of_isName {name : String} (h : IsName name) (here : Path) :
    here.enter name = here ++ [name] := by
  simp [Path.enter, h.noStep]

theorem hasNull_of_isName {p : Path} (h : ∀ name ∈ p, IsName name) : p.hasNull = false := by
  rw [Path.hasNull, List.any_eq_false]
  intro name hname
  simp [(h name hname).noNull]

theorem isName_concat {p : Path} {name : String} (hp : ∀ n ∈ p, IsName n) (hname : IsName name) :
    ∀ n ∈ p ++ [name], IsName n := by
  intro n hn
  rcases List.mem_append.1 hn with hn | hn
  · exact hp n hn
  · exact List.mem_singleton.1 hn ▸ hname

theorem check_of_isName {p : Path} {size : Nat} (h : ∀ name ∈ p, IsName name)
    (hsize : size ≤ pathLimit) : check p size = .ok () := by
  simp [check, hasNull_of_isName h, Nat.not_lt.2 hsize]

/-- What stays on a disk whatever is done there: the folder from which names start, and what the disk
refuses. -/
def rules (d : Disk) : Path × (Path → Option Shortage) × (Path → Bool) :=
  (d.home, d.shortage, d.held)

theorem shortage_of_rules {d d' : Disk} (h : d'.rules = d.rules) : d'.shortage = d.shortage :=
  congrArg (·.2.1) h

theorem held_of_rules {d d' : Disk} (h : d'.rules = d.rules) : d'.held = d.held :=
  congrArg (·.2.2) h

/-- The disk refuses nothing at a place. -/
structure Grants (d : Disk) (p : Path) : Prop where
  stored : d.shortage p = none
  taken : d.held p = false

theorem Grants.of_rules {d d' : Disk} {p : Path} (h : d.Grants p) (hrules : d'.rules = d.rules) :
    d'.Grants p :=
  ⟨shortage_of_rules hrules ▸ h.stored, held_of_rules hrules ▸ h.taken⟩

theorem makeFrom_keeps (way : Path) :
    ∀ (made : Bool) (here : Path), Act.Keeps rules (makeFrom made here way) := by
  induction way with
  | nil => exact fun _ _ => .pure ()
  | cons name rest ih =>
    intro made here
    unfold makeFrom
    dsimp only
    split
    · exact .throw_bind _ _
    · refine .bind .state fun d => ?_
      split
      · exact ih _ _
      · exact .throw _
      · exact .bind (.change fun _ => rfl) fun _ => ih _ _

theorem makeFolder_keeps (p : Path) : Act.Keeps rules (makeFolder p) :=
  .bind (.lift _) fun _ => makeFrom_keeps p false []

theorem store_keeps (p : Path) (text : String) : Act.Keeps rules (store p text) := by
  refine .bind (.lift _) fun _ => .bind .state fun d => .bind (.lift _) fun place => ?_
  dsimp only
  split
  · exact .throw_bind _ _
  · split
    · exact .change fun _ => rfl
    · exact .throw _
    · refine .bind (.change fun _ => rfl) fun _ => ?_
      split
      · exact .throw _
      · exact .pure _

theorem remove_keeps (p : Path) : Act.Keeps rules (remove p) := by
  refine .bind .state fun d => ?_
  split
  · split
    · split
      · exact .throw_bind _ _
      · exact .change fun _ => rfl
    · exact .pure _
  · exact .pure _

theorem replace_keeps (source : Path) (target : Target) :
    Act.Keeps rules (replace source target) := by
  refine .bind (.lift _) fun _ => .bind .state fun d => .bind (.lift _) fun origin => ?_
  split
  · exact .bind (.bind (.lift _) fun _ => .pure _) fun _ => .throw _
  · exact .bind (.bind (.lift _) fun _ => .pure _) fun _ => .throw _
  · refine .bind (.lift _) fun place => ?_
    split
    · exact .throw _
    · exact .throw _
    · dsimp only
      split
      · exact .throw_bind _ _
      · split
        · exact .throw_bind _ _
        · split
          · exact .throw_bind _ _
          · exact .change fun _ => rfl

/-- Every folder on the way to a place is there. -/
def Open (d : Disk) (p : Path) : Prop :=
  ∀ q, q <+: p → d.get? q = some .folder

/-- No file stands on the way to a place. -/
def Clear (d : Disk) (p : Path) : Prop :=
  ∀ q, q <+: p → ∀ text, d.get? q ≠ some (.file text)

theorem Open.clear {d : Disk} {p : Path} (h : d.Open p) : d.Clear p := by
  intro q hq text
  simp [h q hq]

theorem open_nil (d : Disk) : d.Open [] := by
  intro q hq
  rw [List.prefix_nil.1 hq]
  rfl

/-- The way to a place is walked to its end. -/
theorem walk_of_open {d : Disk} (rest : Path) (name : String) :
    ∀ here : Path, d.Open (here ++ rest) → (∀ n ∈ rest ++ [name], IsName n) →
      d.walk here (rest ++ [name]) = .ok (here ++ rest ++ [name]) := by
  induction rest with
  | nil =>
    intro here _ hnames
    have hname : IsName name := hnames name (by simp)
    simp [walk, hname.short, enter_of_isName hname]
  | cons n rest ih =>
    intro here hopen hnames
    have hn : IsName n := hnames n (by simp)
    have hnext : d.get? (here ++ [n]) = some .folder := by
      refine hopen _ ⟨rest, ?_⟩
      simp
    have hrec := ih (here ++ [n]) (by simpa using hopen) fun m hm => hnames m (by simp_all)
    obtain ⟨m, more, hmore⟩ : ∃ m more, rest ++ [name] = m :: more := by
      cases rest with
      | nil => exact ⟨name, [], rfl⟩
      | cons m rest => exact ⟨m, rest ++ [name], rfl⟩
    rw [List.cons_append, hmore]
    simp only [walk, hn.short, Bool.false_eq_true, if_false, enter_of_isName hn, hnext]
    rw [← hmore, hrec]
    simp

theorem prefix_concat_iff {q p : Path} {name : String} :
    q <+: p ++ [name] ↔ q = p ++ [name] ∨ q <+: p := by
  rw [List.prefix_concat_iff]

def Made (d : Disk) (p : Path) (d' : Disk) : Prop :=
  ∀ q, d'.get? q = if q <+: p then some .folder else d.get? q

theorem go_makeFrom (made : Bool) (here : Path) (name : String) (rest : Path) (d : Disk) :
    (makeFrom made here (name :: rest)).go d =
      if tooLong name then (.error (.disk .nameTooLong), d)
      else match d.get? (here.enter name) with
        | some .folder => (makeFrom made (here.enter name) rest).go d
        | some (.file _) =>
          (.error (.disk (if made || rest.isEmpty then .exists else .notFolder)), d)
        | none => (makeFrom true (here.enter name) rest).go (d.set (here.enter name) .folder) := by
  cases hshort : tooLong name with
  | true =>
    simp only [makeFrom, hshort]
    rfl
  | false =>
    simp only [makeFrom, hshort, Bool.false_eq_true, if_false]
    rw [Act.go_bind, Act.go_state]
    dsimp only
    rcases d.get? (here.enter name) with _ | _ | _ <;> rfl

theorem go_makeFrom_cons {n : String} (hn : IsName n) (made : Bool) (here rest : Path) (d : Disk) :
    (makeFrom made here (n :: rest)).go d = match d.get? (here ++ [n]) with
      | some .folder => (makeFrom made (here ++ [n]) rest).go d
      | some (.file _) =>
        (.error (.disk (if made || rest.isEmpty then .exists else .notFolder)), d)
      | none => (makeFrom true (here ++ [n]) rest).go (d.set (here ++ [n]) .folder) := by
  rw [go_makeFrom, hn.short, enter_of_isName hn]
  rfl

/-- With one more folder on the way it is open up to there, and no file blocks the rest. -/
theorem open_and_clear_of_step {d d₁ : Disk} {here rest : Path} {n : String} (hopen : d.Open here)
    (hclear : d.Clear (here ++ n :: rest))
    (hget : ∀ q, d₁.get? q = if q = here ++ [n] then some .folder else d.get? q) :
    d₁.Open (here ++ [n]) ∧ d₁.Clear (here ++ n :: rest) := by
  constructor
  · intro q hq
    rw [hget q]
    split
    · rfl
    · exact hopen q ((prefix_concat_iff.1 hq).resolve_left ‹_›)
  · intro q hq text
    rw [hget q]
    split
    · simp
    · exact hclear q hq text

theorem makeFrom_clear (rest : Path) :
    ∀ (made : Bool) (here : Path) (d : Disk), d.Open here → d.Clear (here ++ rest) →
      (∀ n ∈ rest, IsName n) →
      ∃ d', (makeFrom made here rest).go d = (.ok (), d') ∧ Made d (here ++ rest) d' := by
  induction rest with
  | nil =>
    intro made here d hopen _ _
    refine ⟨d, rfl, fun q => ?_⟩
    rw [List.append_nil]
    split
    · exact hopen q ‹_›
    · rfl
  | cons n rest ih =>
    intro made here d hopen hclear hnames
    have hn : IsName n := hnames n (by simp)
    have hway : here ++ [n] ++ rest = here ++ n :: rest := by simp
    have hnext : here ++ [n] <+: here ++ n :: rest := ⟨rest, hway⟩
    cases hget : d.get? (here ++ [n]) with
    | none =>
      have h₁ := get?_set (d := d) (p := here ++ [n]) (by simp) .folder
      obtain ⟨hopen₁, hclear₁⟩ := open_and_clear_of_step hopen hclear h₁
      obtain ⟨d', hd', hmade⟩ := ih true (here ++ [n]) _ hopen₁ (hway ▸ hclear₁)
        fun m hm => hnames m (by simp [hm])
      refine ⟨d', by rw [go_makeFrom_cons hn, hget]; exact hd', fun q => ?_⟩
      rw [hmade q, hway, h₁ q]
      split
      · rfl
      · rw [if_neg]
        rintro rfl
        exact ‹¬ _› hnext
    | some node =>
      cases node with
      | file text => exact absurd hget (hclear _ hnext text)
      | folder =>
        have hsame : ∀ q, d.get? q = if q = here ++ [n] then some .folder else d.get? q := by
          intro q
          split
          · rw [‹q = _›, hget]
          · rfl
        obtain ⟨hopen₁, -⟩ := open_and_clear_of_step hopen hclear hsame
        obtain ⟨d', hd', hmade⟩ := ih made (here ++ [n]) d hopen₁ (hway ▸ hclear)
          fun m hm => hnames m (by simp [hm])
        exact ⟨d', by rw [go_makeFrom_cons hn, hget]; exact hd', hway ▸ hmade⟩

theorem makeFolder_clear {d : Disk} {p : Path} (hclear : d.Clear p) (hnames : ∀ n ∈ p, IsName n)
    (hsize : p.size ≤ pathLimit) : ∃ d', (makeFolder p).go d = (.ok (), d') ∧ Made d p d' := by
  obtain ⟨d', hgo, hmade⟩ := makeFrom_clear p false [] d (open_nil d) hclear hnames
  refine ⟨d', ?_, hmade⟩
  unfold makeFolder
  rw [check_of_isName hnames hsize]
  exact hgo

theorem Made.open {d d' : Disk} {p : Path} (h : Made d p d') : d'.Open p := by
  intro q hq
  rw [h q, if_pos hq]

theorem store_open {d : Disk} {p : Path} {name : String} (text : String) (hopen : d.Open p)
    (hfree : d.get? (p ++ [name]) ≠ some .folder) (hgrants : d.Grants (p ++ [name]))
    (hnames : ∀ n ∈ p ++ [name], IsName n) (hsize : (p ++ [name]).size ≤ pathLimit) :
    (store (p ++ [name]) text).go d = (.ok (), d.set (p ++ [name]) (.file text)) := by
  have hwalk := walk_of_open p name [] hopen hnames
  have hfolder : d.isFolder (p ++ [name]) = false := by
    rw [isFolder, beq_eq_false_iff_ne]
    exact hfree
  unfold store
  rw [check_of_isName hnames hsize]
  change Act.go (Act.lift (d.walk [] (p ++ [name])) >>= _) d = _
  rw [hwalk]
  change Act.go (if d.isFolder (p ++ [name]) = true then _ else _) d = _
  rw [hfolder]
  dsimp only [List.nil_append]
  rw [if_neg Bool.false_ne_true, hgrants.stored]
  rfl

theorem replace_open {d : Disk} {p : Path} {source name : String} {size : Nat} {text : String}
    (hopen : d.Open p) (hsource : d.get? (p ++ [source]) = some (.file text))
    (hfree : d.get? (p ++ [name]) ≠ some .folder) (hgrants : d.Grants (p ++ [source]))
    (hnames : ∀ n ∈ p ++ [name], IsName n) (hname : IsName source) (hsize : size ≤ pathLimit) :
    (replace (p ++ [source]) ⟨p ++ [name], .plain, size⟩).go d =
      (.ok (), (d.erase (p ++ [source])).set (p ++ [name]) (.file text)) := by
  have hwalk := walk_of_open p name [] hopen hnames
  have hwalkSource := walk_of_open p source [] hopen
    (isName_concat (fun n hn => hnames n (List.mem_append_left _ hn)) hname)
  have hfolder : d.isFolder (p ++ [name]) = false := by
    rw [isFolder, beq_eq_false_iff_ne]
    exact hfree
  unfold replace
  dsimp only
  rw [check_of_isName hnames hsize]
  change Act.go (Act.lift (d.walk [] (p ++ [source])) >>= _) d = _
  rw [hwalkSource]
  change Act.go (Act.lift (d.walk [] (p ++ [name])) >>= _) d = _
  rw [hwalk]
  simp only [List.nil_append, Act.go_bind, Act.go_lift, hsource]
  rw [hfolder, hgrants.taken]
  rfl

end ProxyCensus.Disk
