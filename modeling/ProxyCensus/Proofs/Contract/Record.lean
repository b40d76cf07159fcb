import ProxyCensus.Contract.Record
import ProxyCensus.Proofs.Act
import ProxyCensus.Proofs.Address

/-!
# Records of contracts

What a record says of the values it was read from. Main statements: a record is read exactly when
each of its fields is, and its address is the normal form of the text in its row.
-/

namespace ProxyCensus

namespace Checked

variable {α β : Type}

theorem ap_eq_ok_iff {f : Checked (α → β)} {x : Checked α} {b : β} :
    ap f x = .ok b ↔ ∃ g, f = .ok g ∧ ∃ a, x = .ok a ∧ g a = b := by
  cases f with
  | error d => cases x <;> simp [ap]
  | ok g =>
    cases x with
    | error e => simp [ap]
    | ok a => simp [ap]

theorem under_eq_ok_iff {step : Step} {x : Checked α} {a : α} :
    under step x = .ok a ↔ x = .ok a := by
  cases x <;> simp [under, Except.mapError]

theorem spelled_eq_ok_iff {s : String} {read : String → Checked α} {a : α} :
    spelled s read = .ok a ↔ Text.hasHalf s = false ∧ read s = .ok a := by
  unfold spelled
  cases Text.hasHalf s <;> simp [complain]

theorem text_eq_ok_iff {v : Json} {s : String} :
    text v = .ok s ↔ v = .str s ∧ Text.hasHalf s = false := by
  cases v with
  | str t =>
    simp only [text, spelled_eq_ok_iff, Except.ok.injEq, Json.str.injEq]
    constructor
    · rintro ⟨h, rfl⟩
      exact ⟨rfl, h⟩
    · rintro ⟨rfl, h⟩
      exact ⟨h, rfl⟩
  | _ => simp [text, complain]

theorem required_eq_ok_iff {fields : List (String × Json)} {name : String}
    {read : Json → Checked α} {a : α} :
    required fields name read = .ok a ↔ ∃ v, Json.lookup? fields name = some v ∧ read v = .ok a := by
  rw [required, under_eq_ok_iff]
  cases Json.lookup? fields name <;> simp [complain]

end Checked

namespace ContractRecord

open Checked

theorem readAddress_eq_ok_iff {v : Json} {address : String} :
    readAddress v = .ok address ↔
      ∃ s, v = .str s ∧ Text.hasHalf s = false ∧ Address.normalize? s = some address := by
  unfold readAddress
  constructor
  · intro h
    cases ht : text v with
    | error e =>
      rw [ht] at h
      cases h
    | ok s =>
      rw [ht] at h
      obtain ⟨rfl, hs⟩ := text_eq_ok_iff.1 ht
      refine ⟨s, rfl, hs, ?_⟩
      dsimp only [bind, Except.bind] at h
      cases hn : Address.normalize? s with
      | none =>
        rw [hn] at h
        cases h
      | some normal =>
        rw [hn] at h
        exact congrArg some (Except.ok.inj h)
  · rintro ⟨s, rfl, hs, hn⟩
    rw [text_eq_ok_iff.2 ⟨rfl, hs⟩]
    dsimp only [bind, Except.bind]
    rw [hn]

theorem ofFields_eq_ok_iff {fields : List (String × Json)} {r : ContractRecord} :
    ofFields fields = .ok r ↔
      required fields "chain_id" Checked.int = .ok r.chainId ∧
      required fields "address" readAddress = .ok r.address ∧
      Checked.orElse fields "bytecode" "" text = .ok r.bytecode ∧
      Checked.orElse fields "created_at" none (optional readTimestamp) = .ok r.createdAt ∧
      Checked.orElse fields "creation_match" none (optional text) = .ok r.creationMatch ∧
      Checked.orElse fields "runtime_match" none (optional text) = .ok r.runtimeMatch := by
  unfold ofFields
  simp only [ap_eq_ok_iff]
  constructor
  · rintro ⟨_, ⟨_, ⟨_, ⟨_, ⟨_, ⟨_, h, a₁, h₁, rfl⟩, a₂, h₂, rfl⟩, a₃, h₃,
      rfl⟩, a₄, h₄, rfl⟩, a₅, h₅,
      rfl⟩, a₆, h₆, rfl⟩
    cases h
    exact ⟨h₁, h₂, h₃, h₄, h₅, h₆⟩
  · rintro ⟨h₁, h₂, h₃, h₄, h₅, h₆⟩
    exact ⟨_, ⟨_, ⟨_, ⟨_, ⟨_, ⟨_, rfl, _, h₁, rfl⟩, _, h₂, rfl⟩, _, h₃, rfl⟩, _,
      h₄, rfl⟩, _, h₅,
      rfl⟩, _, h₆, rfl⟩

theorem ofFields?_eq_ok_iff {fields : List (String × Json)} {r : ContractRecord} :
    ofFields? fields = .ok r ↔ ofFields fields = .ok r := by
  unfold ofFields?
  cases ofFields fields <;> simp [Except.mapError]

theorem address_of_ofFields? {fields : List (String × Json)} {r : ContractRecord}
    (h : ofFields? fields = .ok r) : ∃ s, Address.normalize? s = some r.address := by
  obtain ⟨-, haddress, -⟩ := ofFields_eq_ok_iff.1 (ofFields?_eq_ok_iff.1 h)
  obtain ⟨v, -, hv⟩ := required_eq_ok_iff.1 haddress
  obtain ⟨s, -, -, hs⟩ := readAddress_eq_ok_iff.1 hv
  exact ⟨s, hs⟩

theorem ofRow_eq_ok {row : List (String × Json)} {r : ContractRecord} (h : ofRow row = .ok r) :
    ∃ chain n address, Json.lookup? row "chain_id" = some chain ∧ chain.integer = .ok n ∧
      Json.lookup? row "address" = some address ∧
      ofFields? [("chain_id", .int n), ("address", address),
        ("bytecode", codeOrEmpty ((Json.lookup? row "code").getD .null)),
        ("created_at", (Json.lookup? row "created_at").getD .null),
        ("creation_match", (Json.lookup? row "creation_match").getD .null),
        ("runtime_match", (Json.lookup? row "runtime_match").getD .null)] = .ok r := by
  unfold ofRow at h
  dsimp only at h
  cases hc : Json.lookup? row "chain_id" with
  | none =>
    rw [hc] at h
    cases h
  | some chain =>
    rw [hc] at h
    obtain ⟨n, hn, h⟩ := bind_eq_ok_iff.1 h
    cases ha : Json.lookup? row "address" with
    | none =>
      rw [ha] at h
      cases h
    | some address =>
      rw [ha] at h
      exact ⟨chain, n, address, rfl, hn, rfl, h⟩

theorem address_of_ofRow {row : List (String × Json)} {r : ContractRecord}
    (h : ofRow row = .ok r) : ∃ s, Address.normalize? s = some r.address := by
  obtain ⟨_, _, _, _, _, _, h⟩ := ofRow_eq_ok h
  exact address_of_ofFields? h

theorem place_of_ofCode {chain address code : Json} {r : ContractRecord}
    (h : ofCode chain address code = .ok r) :
    chain.integer = .ok r.chainId ∧ ∃ s, address = .str s ∧ Address.normalize? s = some r.address := by
  obtain ⟨n, hn, hfields⟩ := bind_eq_ok_iff.1 h
  obtain ⟨hchain, haddress, -⟩ := ofFields_eq_ok_iff.1 (ofFields?_eq_ok_iff.1 hfields)
  obtain ⟨v, hv, hint⟩ := required_eq_ok_iff.1 hchain
  obtain rfl : Json.int n = v := Option.some.inj hv
  obtain rfl : n = r.chainId := Except.ok.inj hint
  obtain ⟨w, hw, hread⟩ := required_eq_ok_iff.1 haddress
  obtain rfl : address = w := Option.some.inj hw
  obtain ⟨s, hs, -, hnormal⟩ := readAddress_eq_ok_iff.1 hread
  exact ⟨hn, s, hs, hnormal⟩

theorem readAddress_of_isNormal {address : String} (h : Address.IsNormal address) :
    readAddress (.str address) = .ok address := by
  refine readAddress_eq_ok_iff.2 ⟨address, rfl, h.hasHalf, ?_⟩
  obtain ⟨values, hdigits, rfl⟩ := h
  exact Address.normalize?_ofDigits hdigits

/-- Looked up by its chain and its address, a record of a row is read again with the same code. -/
theorem ofCode_of_ofRow {row : List (String × Json)} {r : ContractRecord} (h : ofRow row = .ok r)
    {chain : Json} (hchain : chain.integer = .ok r.chainId) :
    ∃ r', ofCode chain (.str r.address) ((Json.lookup? row "code").getD .null) = .ok r' ∧
      r'.chainId = r.chainId ∧ r'.address = r.address ∧ r'.bytecode = r.bytecode := by
  have hnormal : Address.IsNormal r.address := by
    obtain ⟨s, hs⟩ := address_of_ofRow h
    exact Address.isNormal_of_normalize? hs
  obtain ⟨_, n, _, _, _, _, h⟩ := ofRow_eq_ok h
  obtain ⟨-, -, hcode, -⟩ := ofFields_eq_ok_iff.1 (ofFields?_eq_ok_iff.1 h)
  refine ⟨⟨r.chainId, r.address, r.bytecode, none, none, none⟩, ?_, rfl, rfl, rfl⟩
  unfold ofCode
  rw [hchain]
  change ofFields? _ = _
  refine ofFields?_eq_ok_iff.2 (ofFields_eq_ok_iff.2 ⟨?_, ?_, hcode, rfl, rfl, rfl⟩)
  · exact required_eq_ok_iff.2 ⟨_, rfl, rfl⟩
  · exact required_eq_ok_iff.2 ⟨_, rfl, readAddress_of_isNormal hnormal⟩

end ContractRecord

end ProxyCensus
