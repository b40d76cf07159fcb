import ProxyCensus.Corpus
import ProxyCensus.Proofs.Contract.Record

/-!
# Contracts of the corpus

By what the corpus knows a contract. Main statements: two spellings of one address have the same key,
and in a corpus that lists every contract in one row the question for the code of a contract has one
answer, the code in its row.
-/

namespace ProxyCensus.Corpus

/-- The chain and the key of the address in a row; nothing when the chain is no integer or the address
no text. -/
def identity? (row : Row) : Option (Int × String) :=
  match Json.lookup? row "chain_id", Json.lookup? row "address" with
  | some (.int chain), some (.str address) => some (chain, addressKey address)
  | _, _ => none

def codeOf (row : Row) : Json :=
  (Json.lookup? row "code").getD .null

def codesAt (rows : List Row) (chain : Int) (key : String) : List Json :=
  (rows.filter fun row => identity? row == some (chain, key)).map codeOf

/-- A row of a contract: its chain is an integer that has a text, and its address has a marker and
forty digits. -/
structure Proper (row : Row) : Prop where
  chain : ∃ n : Int, Json.lookup? row "chain_id" = some (.int n) ∧
    (Nat.toDigits 10 n.natAbs).length ≤ Text.digitLimit
  address : ∃ digits : List Char,
    Json.lookup? row "address" = some (.str (String.ofList ('0' :: 'x' :: digits))) ∧
      digits.length = 40 ∧ digits.all Hex.isDigit = true

/-- A corpus of contracts, each of which is in exactly one row. -/
structure Consistent (rows : List Row) : Prop where
  proper : ∀ row ∈ rows, Proper row
  distinct : (rows.map identity?).Nodup

theorem filter_eq_singleton {α β : Type} [BEq β] [LawfulBEq β] {f : α → β} {l : List α}
    (h : (l.map f).Nodup) {a : α} (ha : a ∈ l) : l.filter (fun b => f b == f a) = [a] := by
  induction l with
  | nil => cases ha
  | cons b rest ih =>
    obtain ⟨hb, hrest⟩ := List.nodup_cons.1 (List.map_cons ▸ h : (f b :: rest.map f).Nodup)
    rcases List.mem_cons.1 ha with rfl | ha
    · rw [List.filter_cons_of_pos (by simp), List.filter_eq_nil_iff.2]
      intro c hc heq
      exact hb (beq_iff_eq.1 heq ▸ List.mem_map_of_mem hc)
    · rw [List.filter_cons_of_neg, ih hrest ha]
      intro heq
      exact hb (beq_iff_eq.1 heq ▸ List.mem_map_of_mem ha)

theorem Consistent.codesAt {rows : List Row} (h : Consistent rows) {row : Row} (hrow : row ∈ rows)
    {chain : Int} {key : String} (hidentity : identity? row = some (chain, key)) :
    codesAt rows chain key = [codeOf row] := by
  unfold Corpus.codesAt
  rw [← hidentity, filter_eq_singleton h.distinct hrow]
  rfl

theorem addressKey_ofList {digits : List Char} (h : digits.all Hex.isDigit = true) :
    addressKey (String.ofList ('0' :: 'x' :: digits)) =
      String.ofList ((digits.filterMap Hex.value?).map Hex.digit) := by
  have hascii : ∀ c ∈ digits, c.toNat < 128 := by
    intro c hc
    obtain ⟨n, hn⟩ := Option.isSome_iff_exists.1 (List.all_eq_true.1 h c hc)
    exact Hex.value?_ascii hn
  unfold addressKey
  rw [String.toList_ofList]
  change String.ofList (Text.lowerFrom [] digits) = _
  rw [Text.lowerFrom_of_ascii [] hascii, (Address.map_toLower_eq h).1]

theorem addressKey_ofDigits {values : List Nat} (h : ∀ n ∈ values, n < 16) :
    addressKey (Address.ofDigits values) = String.ofList (values.map Hex.digit) := by
  have hall : (values.map Hex.digit).all Hex.isDigit = true := by
    rw [List.all_map, List.all_eq_true]
    intro n hn
    simp [Hex.isDigit, Hex.value?_digit (h n hn)]
  have hvalues : (values.map Hex.digit).filterMap Hex.value? = values := by
    have := Address.values_ofDigits h
    rwa [Address.values, Address.ofDigits, String.toList_ofList] at this
  rw [Address.ofDigits, addressKey_ofList hall, hvalues]

/-- The corpus knows a contract by the chain and the address of its record. -/
theorem identity?_of_ofRow {row : Row} (hrow : Proper row) {record : ContractRecord}
    (h : ContractRecord.ofRow row = .ok record) :
    identity? row = some (record.chainId, addressKey record.address) ∧
      Text.integer (toString record.chainId) = .ok record.chainId := by
  obtain ⟨n, hn, hlimit⟩ := hrow.chain
  obtain ⟨digits, hdigits, hlength, hall⟩ := hrow.address
  obtain ⟨_, _, _, hchain, hinteger, haddress, hfields⟩ := ContractRecord.ofRow_eq_ok h
  obtain rfl := Option.some.inj (hn.symm.trans hchain)
  obtain rfl := Except.ok.inj hinteger
  obtain rfl := Option.some.inj (hdigits.symm.trans haddress)
  obtain ⟨hid, hread, -⟩ :=
    ContractRecord.ofFields_eq_ok_iff.1 (ContractRecord.ofFields?_eq_ok_iff.1 hfields)
  obtain ⟨_, hv, hread⟩ := Checked.required_eq_ok_iff.1 hread
  obtain rfl := Option.some.inj hv
  obtain ⟨_, hs, -, hnormal⟩ := ContractRecord.readAddress_eq_ok_iff.1 hread
  obtain rfl := Json.str.inj hs
  obtain ⟨hvalues, haddress⟩ := Address.normalize?_eq_some hnormal
  obtain ⟨_, hv, hid⟩ := Checked.required_eq_ok_iff.1 hid
  obtain rfl := Option.some.inj hv
  obtain rfl := Except.ok.inj hid
  refine ⟨?_, Text.integer_toString hlimit⟩
  unfold identity?
  rw [hn, hdigits]
  dsimp only
  rw [haddress, addressKey_ofDigits hvalues.2, addressKey_ofList hall, Address.values,
    String.toList_ofList]
  rfl

variable {α : Type} {out : Outside α}

theorem go_query (hundisturbed : ∀ n, out.disturbance n = none) (q : Query) (j : Journal α) :
    (query out q).go j = (.ok (), { j with queries := j.queries.push q }) := by
  unfold query
  rw [Act.go_bind, Act.go_state]
  dsimp only
  rw [Act.go_bind, Act.go_change]
  dsimp only
  rw [hundisturbed]
  rfl

theorem go_fetchCodes (hundisturbed : ∀ n, out.disturbance n = none) (address : String)
    (chain : Int) (j : Journal α) :
    (fetchCodes out (.str address) (.int chain)).go j = (.ok (out.codes chain (addressKey address)),
      { j with queries := j.queries.push (.code (addressKey address) chain) }) := by
  change Act.go (query out (.code (addressKey address) chain) >>= _) j = _
  rw [Act.go_bind, go_query hundisturbed]
  rfl

end ProxyCensus.Corpus
