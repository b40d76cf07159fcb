import Mathlib.Algebra.Ring.Nat
import ProxyCensus.Json.Document
import ProxyCensus.Json.Reader

/-!
# Reading back what was written

A file that holds a table of lists of texts is read back as that table, with its fields in the order
of their keys. Main statements: a written string is read as one lexeme, whatever its characters are;
and the text of a document that lists texts under distinct keys is read as the object of these lists.
-/

namespace ProxyCensus.Json

open Document (block escape fieldText newLine stringText)

section Strings

variable (d : Dialect)

theorem codeUnit?_ofNat {n : Nat} (h : n < 2 ^ 16) (c : Char) (rest : List Char) :
    codeUnit? (Hex.ofNat 4 n ++ c :: rest) = some (n, c :: rest) := by
  have hdigits : Hex.ofNat 4 n = [Hex.digit (n / 16 / 16 / 16 % 16), Hex.digit (n / 16 / 16 % 16),
      Hex.digit (n / 16 % 16), Hex.digit (n % 16)] := rfl
  have hvalue : ∀ k, Hex.value? (Hex.digit (k % 16)) = some (k % 16) := fun k =>
    Hex.value?_digit (Nat.mod_lt k (by decide))
  rw [hdigits]
  simp only [List.cons_append, List.nil_append, codeUnit?, hvalue]
  simp only [Option.bind_eq_bind, Option.bind_some, Option.pure_def, Option.some.injEq,
    Prod.mk.injEq, and_true]
  omega

/-- A control character is read back from its escape. -/
theorem unicodeEscape_control {c : Char} (h : c.toNat < 32) (e : Char) (rest : List Char) :
    unicodeEscape d (Hex.ofNat 4 c.toNat ++ e :: rest) = .ok (c, e :: rest) := by
  have hhigh : Text.isHigh c.toNat = false := by
    simp only [Text.isHigh, Bool.and_eq_false_iff, decide_eq_false_iff_not]
    omega
  have hhalf : Text.isHalf c.toNat = false := by
    simp only [Text.isHalf, hhigh, Text.isLow, Bool.false_or, Bool.and_eq_false_iff,
      decide_eq_false_iff_not]
    omega
  unfold unicodeEscape
  rw [codeUnit?_ofNat (by omega)]
  simp [hhigh, lone, hhalf]

omit d in
/-- The ways in which a character is written in a string: by a letter of its own, by its number, or as
it is. -/
theorem escape_cases (c : Char) :
    (∃ letter, letter ≠ 'u' ∧ simpleEscape? letter = some c ∧ escape c = ['\\', letter]) ∨
      c.toNat < 32 ∧ escape c = '\\' :: 'u' :: Hex.ofNat 4 c.toNat ∨
      c ≠ '"' ∧ c ≠ '\\' ∧ ¬c.toNat < 32 ∧ escape c = [c] := by
  by_cases hsimple : c ∈ ['"', '\\', '\x08', '\x0c', '\n', '\r', '\t']
  · left
    simp only [List.mem_cons, List.not_mem_nil, or_false] at hsimple
    rcases hsimple with rfl | rfl | rfl | rfl | rfl | rfl | rfl <;>
    exact ⟨_, by decide, rfl, rfl⟩
  · right
    simp only [List.mem_cons, List.not_mem_nil, or_false, not_or] at hsimple
    by_cases hcontrol : c.toNat < 32
    · exact .inl ⟨hcontrol, by simp [escape, hsimple, hcontrol]⟩
    · exact .inr ⟨hsimple.1, hsimple.2.1, hcontrol, by simp [escape, hsimple, hcontrol]⟩

/-- One character is read back from the way it is written in a string. -/
theorem stringFrom_escape (start read : List Char) (c e : Char) (rest : List Char) :
    stringFrom d start read (escape c ++ e :: rest) = stringFrom d start (c :: read) (e :: rest) := by
  rcases escape_cases c with ⟨letter, hletter, hc, heq⟩ | ⟨hcontrol, heq⟩ |
    ⟨hquote, hslash, hcontrol, heq⟩
  · rw [heq, List.cons_append, List.cons_append, List.nil_append, stringFrom]
    · simp only [hc]
    · exact hletter
  · have hread := unicodeEscape_control d hcontrol e rest
    rw [heq, List.cons_append, List.cons_append, stringFrom]
    split
    · rename_i hfault
      rw [hread] at hfault
      cases hfault
    · rename_i hok
      rw [hread] at hok
      cases hok
      rfl
  · rw [heq, List.cons_append, List.nil_append, stringFrom, if_neg hcontrol]
    · exact hquote
    · exact hslash

theorem stringFrom_written (start : List Char) (s rest : List Char) :
    ∀ read, stringFrom d start read (s.flatMap escape ++ '"' :: rest) =
      .ok (String.ofList (read.reverse ++ s), rest) := by
  induction s with
  | nil =>
    intro read
    rw [List.flatMap_nil, List.nil_append, stringFrom, List.append_nil]
  | cons c s ih =>
    intro read
    -- Something follows the character, another one or the closing quote.
    obtain ⟨e, tail, htail⟩ : ∃ e tail, s.flatMap escape ++ '"' :: rest = e :: tail := by
      cases h : s.flatMap escape with
      | nil => exact ⟨_, _, rfl⟩
      | cons e tail => exact ⟨_, _, rfl⟩
    rw [List.flatMap_cons, List.append_assoc, htail, stringFrom_escape, ← htail, ih,
      List.reverse_cons, List.append_assoc]
    rfl

theorem stringText_append (s rest : List Char) :
    stringText s ++ rest = '"' :: (s.flatMap escape ++ '"' :: rest) := by
  simp [stringText]

/-- A written string is one lexeme. -/
theorem lexeme_stringText (s : String) (rest : List Char) :
    lexeme d (stringText s.toList ++ rest) = (.text s, rest) := by
  have h := stringFrom_written d ('"' :: (s.toList.flatMap escape ++ '"' :: rest)) s.toList rest []
  rw [stringText_append]
  simp only [lexeme]
  rw [h, List.reverse_nil, List.nil_append, String.ofList_toList]

end Strings

/-- From one state of the reader in front of a text, the reader gets to another one in front of what
is left of the text. -/
def Reads (d : Dialect) (r : Reader) (s : List Char) (r' : Reader) (left : List Char) : Prop :=
  ∀ fuel, s.length ≤ fuel → ∃ fuel', left.length ≤ fuel' ∧
    (lexemesFrom d fuel s).foldlM (Reader.step d) r =
      (lexemesFrom d fuel' left).foldlM (Reader.step d) r'

variable {d : Dialect} {r r' r'' : Reader}

theorem Reads.trans {s t u : List Char} (h : Reads d r s r' t) (h' : Reads d r' t r'' u) :
    Reads d r s r'' u := by
  intro fuel hfuel
  obtain ⟨fuel₁, hfuel₁, hread₁⟩ := h fuel hfuel
  obtain ⟨fuel₂, hfuel₂, hread₂⟩ := h' fuel₁ hfuel₁
  exact ⟨fuel₂, hfuel₂, hread₁.trans hread₂⟩

theorem Reads.lexeme {spaces : List Char} (hspaces : ∀ c ∈ spaces, isSpace c = true) {c : Char}
    (hc : isSpace c = false) {s left : List Char} {t : Lexeme}
    (hlexeme : Json.lexeme d (c :: s) = (t, left)) (hleft : left.length ≤ s.length)
    (hstep : ∀ place, r.step d (t, place) = .ok r') : Reads d r (spaces ++ c :: s) r' left := by
  intro fuel hfuel
  rw [List.length_append, List.length_cons] at hfuel
  obtain ⟨fuel, rfl⟩ : ∃ k, fuel = k + 1 := ⟨fuel - 1, by omega⟩
  refine ⟨fuel, by omega, ?_⟩
  have hdrop : (spaces ++ c :: s).dropWhile isSpace = c :: s := by
    rw [List.dropWhile_append_of_pos hspaces, List.dropWhile_cons_of_neg (by simp [hc])]
  rw [lexemesFrom, hdrop]
  simp only [hlexeme, List.foldlM_cons, hstep]
  rfl

theorem isSpace_newLine (level : Nat) : ∀ c ∈ newLine level, isSpace c = true := by
  intro c hc
  rcases List.mem_cons.1 hc with rfl | hc
  · rfl
  · rw [List.eq_of_mem_replicate hc]
    rfl

theorem Reads.mark {spaces : List Char} (hspaces : ∀ c ∈ spaces, isSpace c = true) {c : Char}
    (hc : isSpace c = false) {left : List Char} {t : Lexeme}
    (hlexeme : Json.lexeme d (c :: left) = (t, left))
    (hstep : ∀ place, r.step d (t, place) = .ok r') : Reads d r (spaces ++ c :: left) r' left :=
  .lexeme hspaces hc hlexeme (Nat.le_refl _) hstep

theorem Reads.text {spaces : List Char} (hspaces : ∀ c ∈ spaces, isSpace c = true) (s : String)
    (left : List Char) (hstep : ∀ place, r.step d (.text s, place) = .ok r') :
    Reads d r (spaces ++ (stringText s.toList ++ left)) r' left := by
  have h := lexeme_stringText d s left
  rw [stringText_append] at h ⊢
  refine .lexeme hspaces (by decide) h ?_ hstep
  rw [List.length_append, List.length_cons]
  omega

/-- A text that is read as a value wherever a value is expected, as long as no more than so many
arrays and objects are open. -/
def Spells (d : Dialect) (depth : Nat) (text : List Char) (v : Json) : Prop :=
  ∀ (stack : List Frame) (mayClose : Bool) (spaces left : List Char), stack.length ≤ depth →
    (∀ c ∈ spaces, isSpace c = true) →
    Reads d ⟨stack, .value mayClose⟩ (spaces ++ (text ++ left)) ⟨stack, .after v⟩ left

theorem spells_text (d : Dialect) (depth : Nat) (s : String) :
    Spells d depth (stringText s.toList) (.str s) :=
  fun _ _ _ left _ hspaces => .text hspaces s left fun _ => rfl

def morePartsText (level : Nat) (parts : List (List Char)) : List Char :=
  parts.flatMap fun p => ',' :: newLine (level + 1) ++ p

theorem block_cons (left right : Char) (level : Nat) (part : List Char) (parts : List (List Char))
    (rest : List Char) : block left right level (part :: parts) ++ rest =
      left :: (newLine (level + 1) ++ (part ++ (morePartsText level parts ++
        (newLine level ++ right :: rest)))) := by
  simp [block, morePartsText]

/-- The items of an array after the first one are read one by one. -/
theorem reads_items {depth : Nat} (level : Nat) (stack : List Frame) (left : List Char)
    (hstack : stack.length < depth) (items : List (List Char × Json))
    (hitems : ∀ item ∈ items, Spells d depth item.1 item.2) :
    ∀ (before : List Json) (v : Json),
      Reads d ⟨.array before :: stack, .after v⟩
        (morePartsText level (items.map (·.1)) ++ (newLine level ++ ']' :: left))
        ⟨stack, .after (.arr ((v :: before).reverse ++ items.map (·.2)))⟩ left := by
  induction items with
  | nil =>
    intro before v
    simp only [List.map_nil, List.append_nil]
    exact .mark (isSpace_newLine level) (by decide) rfl fun _ => rfl
  | cons item rest ih =>
    intro before v
    have hitem := hitems item List.mem_cons_self
    have hsplit : morePartsText level ((item :: rest).map (·.1)) ++ (newLine level ++ ']' :: left) =
        [] ++ ',' :: (newLine (level + 1) ++ (item.1 ++
          (morePartsText level (rest.map (·.1)) ++ (newLine level ++ ']' :: left)))) := by
      simp [morePartsText]
    rw [hsplit]
    refine .trans (.mark (fun c hc => by cases hc) (by decide) rfl fun _ => rfl) ?_
    refine .trans (hitem (.array (v :: before) :: stack) false _ _ hstack
      (isSpace_newLine (level + 1))) ?_
    have hlist : (v :: before).reverse ++ (item :: rest).map (·.2) =
        (item.2 :: v :: before).reverse ++ rest.map (·.2) := by simp
    rw [hlist]
    exact ih (fun i hi => hitems i (List.mem_cons_of_mem _ hi)) (v :: before) item.2

theorem mayOpen_of_le {depth : Nat} (hdepth : ∀ limit ∈ d.depth, depth < limit)
    {stack : List Frame} (hstack : stack.length ≤ depth) (mode : Mode) :
    Reader.mayOpen d ⟨stack, mode⟩ = true := by
  unfold Reader.mayOpen
  cases h : d.depth with
  | none => rfl
  | some limit =>
    have := hdepth limit h
    simp only [decide_eq_true_eq]
    omega

/-- A block of items in square brackets spells the array of the values that they spell. -/
theorem spells_block_array {depth : Nat} (level : Nat) {items : List (List Char × Json)}
    (hdepth : ∀ limit ∈ d.depth, depth < limit)
    (hitems : ∀ item ∈ items, Spells d (depth + 1) item.1 item.2) :
    Spells d depth (block '[' ']' level (items.map (·.1))) (.arr (items.map (·.2))) := by
  intro stack mayClose spaces left hstack hspaces
  have hstart : ∀ place, Reader.step d ⟨stack, .value mayClose⟩ (.openArray, place) =
      .ok ⟨.array [] :: stack, .value true⟩ := by
    intro place
    simp [Reader.step, Reader.stepValue, mayOpen_of_le hdepth hstack]
  cases items with
  | nil =>
    refine .trans (.mark hspaces (by decide) rfl hstart) ?_
    exact @Reads.mark d _ _ [] (fun c hc => by cases hc) ']' (by decide) left _ rfl fun _ => rfl
  | cons item rest =>
    rw [List.map_cons, block_cons]
    refine .trans (.mark hspaces (by decide) rfl hstart) ?_
    refine .trans (hitems item List.mem_cons_self (.array [] :: stack) true _ _
      (Nat.succ_le_succ hstack) (isSpace_newLine (level + 1))) ?_
    exact reads_items level stack left (Nat.lt_succ_of_le hstack) rest
      (fun i hi => hitems i (List.mem_cons_of_mem _ hi)) [] item.2

/-- A field of an object: its key, the text of its value, and the value. -/
structure Field where
  key : String
  text : List Char
  value : Json

def Field.written (f : Field) : List Char :=
  fieldText (f.key.toList, f.text)

def Field.kept (f : Field) : String × Json :=
  (f.key, f.value)

theorem reads_field {depth : Nat} {f : Field} (hf : Spells d depth f.text f.value)
    {stack : List Frame} (hstack : stack.length < depth) (before : List (String × Json))
    (mayClose : Bool) {spaces : List Char} (hspaces : ∀ c ∈ spaces, isSpace c = true)
    (left : List Char) :
    Reads d ⟨.object before "" :: stack, .name mayClose⟩ (spaces ++ (f.written ++ left))
      ⟨.object before f.key :: stack, .after f.value⟩ left := by
  have hsplit : f.written ++ left = stringText f.key.toList ++ ([] ++ ':' :: ([' '] ++
      (f.text ++ left))) := by
    simp [Field.written, fieldText]
  rw [hsplit]
  refine .trans (.text hspaces f.key _ fun _ => rfl) ?_
  refine .trans (.mark (fun c hc => by cases hc) (by decide) rfl fun _ => rfl) ?_
  refine hf (.object before f.key :: stack) false [' '] left hstack fun c hc => ?_
  obtain rfl := List.mem_singleton.1 hc
  rfl

theorem reads_fields {depth : Nat} (level : Nat) (stack : List Frame) (left : List Char)
    (hstack : stack.length < depth) (fields : List Field)
    (hfields : ∀ f ∈ fields, Spells d depth f.text f.value) :
    ∀ (before : List (String × Json)) (f : Field),
      Reads d ⟨.object before f.key :: stack, .after f.value⟩
        (morePartsText level (fields.map Field.written) ++ (newLine level ++ '\x7d' :: left))
        ⟨stack, .after (ofFields ((f.kept :: before).reverse ++ fields.map Field.kept))⟩ left := by
  induction fields with
  | nil =>
    intro before f
    simp only [List.map_nil, List.append_nil]
    exact .mark (isSpace_newLine level) (by decide) rfl fun _ => rfl
  | cons g rest ih =>
    intro before f
    have hsplit : morePartsText level ((g :: rest).map Field.written) ++
        (newLine level ++ '\x7d' :: left) =
        [] ++ ',' :: (newLine (level + 1) ++ (g.written ++
          (morePartsText level (rest.map Field.written) ++ (newLine level ++ '\x7d' :: left)))) := by
      simp [morePartsText]
    have hlist : (f.kept :: before).reverse ++ (g :: rest).map Field.kept =
        (g.kept :: f.kept :: before).reverse ++ rest.map Field.kept := by simp
    rw [hsplit, hlist]
    refine .trans (.mark (fun c hc => by cases hc) (by decide) rfl fun _ => rfl) ?_
    refine .trans (reads_field (hfields g List.mem_cons_self) hstack (f.kept :: before) false
      (isSpace_newLine (level + 1)) _) ?_
    exact ih (fun h hh => hfields h (List.mem_cons_of_mem _ hh)) (f.kept :: before) g

/-- A block of fields between braces spells the object of these fields. -/
theorem spells_block_object {depth : Nat} (level : Nat) {fields : List Field}
    (hdepth : ∀ limit ∈ d.depth, depth < limit)
    (hfields : ∀ f ∈ fields, Spells d (depth + 1) f.text f.value) :
    Spells d depth (block '\x7b' '\x7d' level (fields.map Field.written))
      (ofFields (fields.map Field.kept)) := by
  intro stack mayClose spaces left hstack hspaces
  have hstart : ∀ place, Reader.step d ⟨stack, .value mayClose⟩ (.openObject, place) =
      .ok ⟨.object [] "" :: stack, .name true⟩ := by
    intro place
    simp [Reader.step, Reader.stepValue, mayOpen_of_le hdepth hstack]
  cases fields with
  | nil =>
    refine .trans (.mark hspaces (by decide) rfl hstart) ?_
    exact @Reads.mark d _ _ [] (fun c hc => by cases hc) '\x7d' (by decide) left _ rfl fun _ => rfl
  | cons f rest =>
    rw [List.map_cons, block_cons]
    refine .trans (.mark hspaces (by decide) rfl hstart) ?_
    refine .trans (reads_field (hfields f List.mem_cons_self) (Nat.lt_succ_of_le hstack) [] true
      (isSpace_newLine (level + 1)) _) ?_
    exact reads_fields level stack left (Nat.lt_succ_of_le hstack) rest
      (fun g hg => hfields g (List.mem_cons_of_mem _ hg)) [] f

/-- A text that does not begin with a byte order mark is read lexeme by lexeme. -/
theorem read_of_unmarked {text : List Char} (hmark : ∀ rest, text ≠ '\ufeff' :: rest) :
    read d text = (lexemes d text).foldlM (Reader.step d) ⟨[], .value false⟩ >>= Reader.finish := by
  unfold read
  split
  · exact absurd rfl (hmark _)
  · rfl

/-- A text that spells a value is read as this value. -/
theorem read_of_spells {text : List Char} {v : Json} (h : Spells d 0 text v)
    (hmark : ∀ rest, text ≠ '\ufeff' :: rest) : read d text = .ok v := by
  have hread := h [] false [] [] (Nat.le_refl 0) (fun c hc => by cases hc)
  rw [List.nil_append, List.append_nil] at hread
  obtain ⟨fuel, -, hrun⟩ := hread text.length (Nat.le_refl _)
  have hempty : lexemesFrom d fuel [] = [] := by
    cases fuel <;> rfl
  rw [hempty] at hrun
  rw [read_of_unmarked hmark, lexemes, hrun]
  rfl

theorem ofFields_of_nodup {fields : List (String × Json)} (h : (fields.map (·.1)).Nodup) :
    ofFields fields = .obj fields := by
  have hfold : ∀ (rest known : List (String × Json)), ((known ++ rest).map (·.1)).Nodup →
      rest.foldl (fun known f => setField known f.1 f.2) known = known ++ rest := by
    intro rest
    induction rest with
    | nil => exact fun known _ => (List.append_nil known).symm
    | cons f rest ih =>
      intro known hknown
      have hnew : f.1 ∉ known.map (·.1) := by
        rw [List.map_append, List.nodup_append] at hknown
        exact fun hmem => hknown.2.2 _ hmem _ (by simp) rfl
      rw [List.append_cons] at hknown ⊢
      rw [List.foldl_cons, setField_of_not_mem hnew]
      exact ih _ hknown
  exact congrArg Json.obj (hfold fields [] h)

section Lists

def listsDocument (entries : List (String × List String)) : Document :=
  .table (entries.map fun e => (.text e.1, .texts e.2))

def listsValue (entries : List (String × List String)) : List (String × Json) :=
  entries.map fun e => (e.1, .arr (e.2.map .str))

def sortedEntries (entries : List (String × List String)) : List (String × List String) :=
  entries.mergeSort fun a b => Document.upTo a.1.toList b.1.toList

def listText (items : List String) : List Char :=
  block '[' ']' 1 (items.map fun s => stringText s.toList)

theorem writeItems_texts {level : Nat} {items : List String} {ts : List (List Char)}
    (h : Document.writeItems level (items.map .text) = .ok ts) :
    ts = items.map fun s => stringText s.toList := by
  induction items generalizing ts with
  | nil => exact (Except.ok.inj h).symm
  | cons s rest ih =>
    rw [List.map_cons, Document.writeItems, Document.write] at h
    split at h
    · cases h
    · cases hrest : Document.writeItems level (rest.map .text) with
      | error e =>
        rw [hrest] at h
        cases h
      | ok more =>
        rw [hrest] at h
        obtain rfl := Except.ok.inj h
        rw [ih hrest]
        rfl

theorem write_texts {items : List String} {t : List Char}
    (h : Document.write 1 (.texts items) = .ok t) : t = listText items := by
  have hnest : Document.mayNest 1 = true := by decide
  unfold Document.texts at h
  rw [Document.write, hnest] at h
  cases hitems : Document.writeItems 2 (items.map .text) with
  | error e =>
    rw [hitems] at h
    cases h
  | ok ts =>
    rw [hitems] at h
    obtain rfl := Except.ok.inj h
    rw [writeItems_texts hitems]
    rfl

theorem writeFields_lists {entries : List (String × List String)}
    {ts : List (List Char × List Char)}
    (h : Document.writeFields 1 (entries.map fun e => (.text e.1, .texts e.2)) = .ok ts) :
    ts = entries.map fun e => (e.1.toList, listText e.2) := by
  induction entries generalizing ts with
  | nil => exact (Except.ok.inj h).symm
  | cons e rest ih =>
    rw [List.map_cons, Document.writeFields, Document.keyText] at h
    split at h
    · cases h
    · cases hvalue : Document.write 1 (.texts e.2) with
      | error f =>
        rw [hvalue] at h
        cases h
      | ok t =>
        rw [hvalue] at h
        cases hrest : Document.writeFields 1 (rest.map fun e => (.text e.1, .texts e.2)) with
        | error f =>
          rw [hrest] at h
          cases h
        | ok more =>
          rw [hrest] at h
          obtain rfl := Except.ok.inj h
          rw [ih hrest, write_texts hvalue]
          rfl

theorem render_lists {entries : List (String × List String)} {text : String}
    (h : (listsDocument entries).render = .ok text) :
    text.toList = block '\x7b' '\x7d' 0 ((sortedEntries entries).map fun e =>
      fieldText (e.1.toList, listText e.2)) := by
  have hnest : Document.mayNest 0 = true := by decide
  unfold Document.render listsDocument at h
  rw [Document.write, hnest] at h
  cases hfields : Document.writeFields 1 (entries.map fun e => (.text e.1, .texts e.2)) with
  | error e =>
    rw [hfields] at h
    cases h
  | ok ts =>
    rw [hfields] at h
    obtain rfl := Except.ok.inj h
    rw [String.toList_ofList, writeFields_lists hfields]
    have hsort : Document.sortFields (entries.map fun e => (e.1.toList, listText e.2)) =
        (sortedEntries entries).map fun e => (e.1.toList, listText e.2) := by
      unfold Document.sortFields sortedEntries
      exact (@List.map_mergeSort _ _ (fun a b => Document.upTo a.1.toList b.1.toList)
        (fun a b => Document.upTo a.1 b.1) (fun e => (e.1.toList, listText e.2)) entries
        fun a _ b _ => rfl).symm
    change block _ _ 0 ((Document.sortFields _).map fieldText) = _
    rw [hsort, List.map_map]
    rfl

/-- Written lists of texts under distinct keys are read back, in the order of the keys. -/
theorem ofFile?_render_lists {entries : List (String × List String)} {text : String}
    (hkeys : (entries.map (·.1)).Nodup) (h : (listsDocument entries).render = .ok text) :
    ofFile? text = some (.obj (listsValue (sortedEntries entries))) := by
  have hsorted : ((listsValue (sortedEntries entries)).map (·.1)).Nodup := by
    rw [listsValue, List.map_map]
    exact ((List.mergeSort_perm entries _).map (·.1)).nodup_iff.2 hkeys
  have hlist : ∀ items : List String, Spells .strict 1 (listText items) (.arr (items.map .str)) := by
    intro items
    have hspells := @spells_block_array .strict 1 1
      (items.map fun s => (stringText s.toList, .str s)) (by decide) fun item hitem => by
        obtain ⟨s, -, rfl⟩ := List.mem_map.1 hitem
        exact spells_text .strict 2 s
    rwa [List.map_map, List.map_map] at hspells
  have hobject := @spells_block_object .strict 0 0
    ((sortedEntries entries).map fun e => ⟨e.1, listText e.2, .arr (e.2.map .str)⟩) (by decide)
    fun f hf => by
      obtain ⟨e, -, rfl⟩ := List.mem_map.1 hf
      exact hlist e.2
  rw [List.map_map, List.map_map] at hobject
  have hread := read_of_spells hobject fun rest hrest => by
    cases hs : sortedEntries entries with
    | nil =>
      rw [hs] at hrest
      cases hrest
    | cons e es =>
      rw [hs] at hrest
      cases hrest
  have htext : text.toList = block '\x7b' '\x7d' 0
      ((sortedEntries entries).map (Field.written ∘ fun e =>
        ⟨e.1, listText e.2, .arr (e.2.map .str)⟩)) := render_lists h
  unfold ofFile?
  rw [htext, hread, ← ofFields_of_nodup hsorted]
  rfl

end Lists

end ProxyCensus.Json
