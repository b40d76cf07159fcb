import Mathlib.Data.List.Nodup
import Mathlib.Data.List.Perm.Basic
import ProxyCensus.Json.Document
import ProxyCensus.Proofs.Act
import ProxyCensus.Proofs.Text.Integer

/-!
# The order of fields

A table is written with its fields in the order of their keys. Main statement: tables with the same
fields in any order have the same text, if no two of their keys have the same text.
-/

namespace ProxyCensus.Document

theorem upTo_cons_iff {a b : Char} {s t : List Char} :
    upTo (a :: s) (b :: t) = true ↔ a.toNat < b.toNat ∨ a = b ∧ upTo s t = true := by
  rw [upTo, ← Char.toNat_inj]
  by_cases h : a.toNat = b.toNat <;> simp [h]

theorem upTo_trans {r s t : List Char} (h : upTo r s = true) (h' : upTo s t = true) : upTo r t = true := by
  induction r generalizing s t with
  | nil => rfl
  | cons a r ih =>
    cases s with
    | nil => cases h
    | cons b s =>
      cases t with
      | nil => cases h'
      | cons c t =>
        rw [upTo_cons_iff] at h h' ⊢
        rcases h with hlt | ⟨rfl, h⟩
        · rcases h' with hlt' | ⟨rfl, -⟩
          · exact .inl (hlt.trans hlt')
          · exact .inl hlt
        · exact h'.imp_right fun h' => ⟨h'.1, ih h h'.2⟩

theorem upTo_total (s t : List Char) : upTo s t = true ∨ upTo t s = true := by
  induction s generalizing t with
  | nil => exact .inl rfl
  | cons a s ih =>
    cases t with
    | nil => exact .inr rfl
    | cons b t =>
      rw [upTo_cons_iff, upTo_cons_iff]
      rcases Nat.lt_trichotomy a.toNat b.toNat with h | h | h
      · exact .inl (.inl h)
      · obtain rfl := Char.toNat_inj.1 h
        exact (ih t).imp (fun h => .inr ⟨rfl, h⟩) fun h => .inr ⟨rfl, h⟩
      · exact .inr (.inl h)

theorem upTo_antisymm {s t : List Char} (h : upTo s t = true) (h' : upTo t s = true) : s = t := by
  induction s generalizing t with
  | nil =>
    cases t with
    | nil => rfl
    | cons b t => cases h'
  | cons a s ih =>
    cases t with
    | nil => cases h
    | cons b t =>
      rw [upTo_cons_iff] at h h'
      rcases h with hlt | ⟨rfl, h⟩
      · rcases h' with hlt' | ⟨rfl, -⟩ <;> omega
      · rw [ih h (h'.resolve_left (Nat.lt_irrefl _)).2]

/-- Sorted fields do not show in which order they were, when their keys are distinct. -/
theorem sortFields_eq_of_perm {fields fields' : List (List Char × List Char)}
    (hperm : fields.Perm fields') (hkeys : (fields.map (·.1)).Nodup) :
    sortFields fields = sortFields fields' := by
  have hsorted : ∀ fields, (sortFields fields).Pairwise fun a b => upTo a.1 b.1 = true :=
    List.pairwise_mergeSort (fun _ _ _ => upTo_trans) fun a b => Bool.or_eq_true_iff.2 (upTo_total a.1 b.1)
  have hsame : ∀ fields : List (List Char × List Char), (sortFields fields).Perm fields :=
    fun fields => List.mergeSort_perm fields _
  refine List.Perm.eq_of_pairwise (fun a b ha hb hle hle' => ?_) (hsorted fields) (hsorted fields')
    ((hsame fields).trans (hperm.trans (hsame fields').symm))
  have hkey : a.1 = b.1 := upTo_antisymm hle hle'
  have hb' : b ∈ fields := hperm.mem_iff.2 ((hsame fields').mem_iff.1 hb)
  exact List.inj_on_of_nodup_map hkeys ((hsame fields).mem_iff.1 ha) hb' hkey

/-- The texts of the key and of the value of a field. -/
def FieldTexts (level : Nat) (field : Key × Document) (texts : List Char × List Char) : Prop :=
  keyText field.1 = .ok texts.1 ∧ write level field.2 = .ok texts.2

theorem writeFields_eq_ok_iff {level : Nat} {fields : List (Key × Document)}
    {texts : List (List Char × List Char)} :
    writeFields level fields = .ok texts ↔ List.Forall₂ (FieldTexts level) fields texts := by
  induction fields generalizing texts with
  | nil => simp [writeFields, eq_comm]
  | cons field rest ih =>
    obtain ⟨key, value⟩ := field
    rw [writeFields, bind_eq_ok_iff]
    constructor
    · rintro ⟨k, hk, h⟩
      obtain ⟨v, hv, h⟩ := bind_eq_ok_iff.1 h
      obtain ⟨others, hothers, h⟩ := bind_eq_ok_iff.1 h
      obtain rfl := Except.ok.inj h
      exact .cons ⟨hk, hv⟩ (ih.1 hothers)
    · rintro (_ | ⟨⟨hk, hv⟩, hothers⟩)
      exact ⟨_, hk, bind_eq_ok_iff.2 ⟨_, hv, bind_eq_ok_iff.2 ⟨_, ih.2 hothers, rfl⟩⟩⟩

/-- A table is written when it may stand there and every field has its texts. -/
theorem write_table_eq_ok_iff {level : Nat} {fields : List (Key × Document)} {text : List Char} :
    write level (.table fields) = .ok text ↔ mayNest level = true ∧
      ∃ texts, List.Forall₂ (FieldTexts (level + 1)) fields texts ∧
        block '\x7b' '\x7d' level ((sortFields texts).map fieldText) = text := by
  rw [write]
  cases mayNest level with
  | false =>
    constructor
    · intro h
      cases h
    · rintro ⟨h, -⟩
      cases h
  | true =>
    rw [and_iff_right rfl]
    change (writeFields (level + 1) fields >>= fun texts =>
      .ok (block '\x7b' '\x7d' level ((sortFields texts).map fieldText))) = .ok text ↔ _
    simp [bind_eq_ok_iff, writeFields_eq_ok_iff]

/-- What is written for a document is written for the other one too. -/
def SameText (level : Nat) (d d' : Document) : Prop :=
  ∀ text, write level d = .ok text → write level d' = .ok text

theorem SameText.refl (level : Nat) (d : Document) : SameText level d d :=
  fun _ h => h

theorem SameText.render {d d' : Document} (h : SameText 0 d d') {text : String}
    (htext : d.render = .ok text) : d'.render = .ok text := by
  unfold Document.render at htext ⊢
  cases hd : write 0 d with
  | error e =>
    rw [hd] at htext
    cases htext
  | ok t =>
    rw [hd] at htext
    rwa [h t hd]

theorem SameText.table {level : Nat} {fields fields' : List (Key × Document)}
    (h : List.Forall₂ (fun f f' => f.1 = f'.1 ∧ SameText (level + 1) f.2 f'.2) fields fields') :
    SameText level (.table fields) (.table fields') := by
  intro text htext
  rw [write_table_eq_ok_iff] at htext ⊢
  obtain ⟨hlevel, texts, htexts, hblock⟩ := htext
  refine ⟨hlevel, texts, ?_, hblock⟩
  clear hblock
  induction h generalizing texts with
  | nil => exact htexts
  | cons h _ ih =>
    cases htexts with
    | cons htext htexts => exact .cons ⟨h.1 ▸ htext.1, h.2 _ htext.2⟩ (ih _ htexts)

/-- No two fields have keys with the same text. -/
def Apart (fields : List (Key × Document)) : Prop :=
  fields.Pairwise fun f f' => ∀ k, keyText f.1 = .ok k → keyText f'.1 ≠ .ok k

theorem Apart.nodup {level : Nat} {fields : List (Key × Document)}
    {texts : List (List Char × List Char)} (h : Apart fields)
    (htexts : List.Forall₂ (FieldTexts level) fields texts) : (texts.map (·.1)).Nodup := by
  have hkeys : fields.map (fun f => keyText f.1) = texts.map fun text => .ok text.1 := by
    clear h
    induction htexts with
    | nil => rfl
    | cons h _ ih => rw [List.map_cons, List.map_cons, h.1, ih]
  have happart : (fields.map fun f => keyText f.1).Pairwise fun a b => ∀ k, a = .ok k → b ≠ .ok k :=
    List.pairwise_map.2 h
  rw [hkeys] at happart
  refine List.pairwise_map.2 ((List.pairwise_map.1 happart).imp fun hne heq => ?_)
  exact hne _ rfl (congrArg Except.ok heq.symm)

/-- Tables with the same fields in any order have the same text. -/
theorem SameText.table_of_perm {level : Nat} {fields fields' : List (Key × Document)}
    (hperm : fields.Perm fields') (h : Apart fields) :
    SameText level (.table fields) (.table fields') := by
  intro text htext
  rw [write_table_eq_ok_iff] at htext ⊢
  obtain ⟨hlevel, texts, htexts, hblock⟩ := htext
  obtain ⟨texts', htexts', hperm'⟩ := List.perm_comp_forall₂ hperm.symm htexts
  refine ⟨hlevel, texts', htexts', ?_⟩
  rw [← hblock, sortFields_eq_of_perm hperm'.symm (h.nodup htexts)]

theorem keyText_text_inj {s s' : String} {k : List Char} (h : keyText (.text s) = .ok k)
    (h' : keyText (.text s') = .ok k) : s = s' := by
  simp only [keyText] at h h'
  split at h
  · cases h
  · split at h'
    · cases h'
    · exact String.toList_inj.1 ((Except.ok.inj h).trans (Except.ok.inj h').symm)

theorem keyText_int_inj {n n' : Int} {k : List Char} (h : keyText (.int n) = .ok k)
    (h' : keyText (.int n') = .ok k) : n = n' := by
  simp only [keyText, wordText] at h h'
  split at h
  · split at h'
    · exact Text.toString_int_inj (String.toList_inj.1 ((Except.ok.inj h).trans (Except.ok.inj h').symm))
    · cases h'
  · cases h

/-- Entries under distinct keys make fields that are apart, if different keys have different texts. -/
theorem apart_of_nodup {κ ν : Type} {es : List (κ × ν)} (h : (es.map (·.1)).Nodup) {key : κ → Key}
    (hkey : ∀ {a b k}, keyText (key a) = .ok k → keyText (key b) = .ok k → a = b)
    (value : ν → Document) :
    Apart (es.map fun e => (key e.1, value e.2)) :=
  List.pairwise_map.2 ((List.pairwise_map.1 h).imp fun hne _ hk hk' => hne (hkey hk hk'))

end ProxyCensus.Document
