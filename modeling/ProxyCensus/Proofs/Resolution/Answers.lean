import ProxyCensus.Proofs.Evm.Abi
import ProxyCensus.Proofs.Hex.Spelling
import ProxyCensus.Proofs.Resolution.Inquiry
import ProxyCensus.Proofs.Resolution.Outcomes

/-!
# Answers

What a resolution makes of the answer to its question. Main statements: a diamond is resolved to all the
facets that it lists or to none; and a slot and an accessor that hold one address are resolved to this
address, whatever the slot has in front of it and the accessor behind it.
-/

namespace ProxyCensus

namespace Address

theorem ofBytes_injective : Function.Injective ofBytes := by
  intro bytes bytes' h
  have hdigits := String.ofList_injective h
  exact Hex.encode_injective (List.cons.inj (List.cons.inj hdigits).2).2

def zeroBytes : List UInt8 :=
  List.replicate 20 0

theorem ofBytes_eq_zero_iff {bytes : List UInt8} : ofBytes bytes = zero ↔ bytes = zeroBytes := by
  have hzero : ofBytes zeroBytes = zero := by decide +kernel
  rw [← hzero, ofBytes_injective.eq_iff]

end Address

namespace Resolution

def resolved? (m : Match) : List String → Option Resolved
  | [] => none
  | found => some ⟨m.pattern, (Catalog.row m.pattern).method, found⟩

theorem resolved?_eq_none_iff {m : Match} {found : List String} :
    resolved? m found = none ↔ found = [] := by
  cases found <;> simp [resolved?]

/-- A match asks one question, and when a text is the answer it is resolved to these addresses, whichever
contract it is about and in whatever way the answer came. -/
def Settles (m : Match) (text : String) (found : List String) : Prop :=
  ∀ address, ∃ request next, inquiry m address = .ask request next ∧
    ∀ {α : Type} [Seconds α] (out : Outside α) (chain : Option Int) (l : Line α),
      ((Line.ask out request).go l).1 = .ok (.str text) →
        ((resolve out chain m address).go l).1 = .ok (resolved? m found)

/-- What comes of reading an answer. A reading that fails for a reason of its own finds nothing. -/
inductive Gives : Except Failure (List String) → List String → Prop
  | found (found : List String) : Gives (.ok found) found
  | own {f : Failure} (h : isOwn f = true) : Gives (.error f) []

/-- A match whose inquiry reads one answer is resolved to what the reading gives. -/
theorem settles_of_reading {m : Match} {text : String} {found : List String}
    (h : ∀ address, ∃ request read, inquiry m address = .reading request read ∧
      Gives (read (.str text)) found) : Settles m text found := by
  intro address
  obtain ⟨request, read, hinquiry, hgives⟩ := h address
  refine ⟨request, _, hinquiry, fun out chain l hanswer => ?_⟩
  have hrun : (((inquiry m address).run out).go l).1 = read (.str text) := by
    rw [hinquiry]
    change ((Line.ask out request >>= fun answer => Act.lift (read answer)).go l).1 = _
    rw [Act.go_bind_of_ok hanswer]
    rfl
  rw [resolve_eq_report, Act.go_bind, Act.go_outcome, hrun]
  generalize read (.str text) = r at hgives
  cases hgives with
  | found found => cases found <;> rfl
  | own hown =>
    dsimp only [report]
    rw [if_pos hown]
    rfl

/-- On nodes that reply a text to everything, a match is resolved to what the text settles. -/
theorem Settles.go_resolve {m : Match} {text : String} {found : List String} (h : Settles m text found)
    {α : Type} [Seconds α] {l : Line α} {urls : List Json} (hends : l.client.endpoints = .list urls)
    (hurls : urls ≠ []) (hrounds : 0 < l.client.rounds) (chain : Option Int) (address : String) :
    ((resolve (.replying (.http 200 (.document (.obj [("result", .str text)])))) chain m address).go l).1 =
      .ok (resolved? m found) := by
  obtain ⟨request, -, -, hsettles⟩ := h address
  exact hsettles _ chain l (Line.go_ask_replying Json.noConfusion hends hurls hrounds request)

/-- A reading that does not come about finds nothing. -/
theorem gives_of_ne_ok {r : Except Failure (List String)} (hne : ∀ found, r ≠ .ok found)
    (hown : ∀ f, r = .error f → isOwn f = true) : Gives r [] := by
  cases r with
  | ok found => exact absurd rfl (hne found)
  | error f => exact .own (hown f rfl)

theorem answerBytes_of_spells {bytes : List UInt8} {text : String} (h : Hex.Spells bytes text) :
    answerBytes text = .ok bytes := by
  rw [answerBytes, h.decode_clean]
  rfl

theorem exists_selectorFor (m : Match) {d : Definition} (h : d.accessor ≠ none) :
    ∃ selector, selectorFor m d = some selector := by
  obtain ⟨accessor, haccessor⟩ := Option.ne_none_iff_exists'.1 h
  unfold selectorFor
  split
  · split
    · exact ⟨accessor, haccessor⟩
    · exact ⟨_, rfl⟩
  · exact ⟨accessor, haccessor⟩

section Facets

theorem eraseDups_map {β γ : Type} [BEq β] [LawfulBEq β] [BEq γ] [LawfulBEq γ] {f : β → γ}
    (hf : Function.Injective f) (l : List β) : (l.map f).eraseDups = l.eraseDups.map f := by
  induction l using eraseDups_induction with
  | nil => rfl
  | cons a rest ih =>
    have hkept : ((fun c => !c == f a) ∘ f) = fun b => !b == a := by
      funext b
      simp only [Function.comp_apply, Bool.not_inj_iff]
      exact Bool.eq_iff_iff.2 (by rw [beq_iff_eq, beq_iff_eq, hf.eq_iff])
    rw [List.map_cons, List.eraseDups_cons, List.eraseDups_cons, List.map_cons, List.filter_map, hkept, ih]

theorem eraseDups_filter {β : Type} [BEq β] [LawfulBEq β] (p : β → Bool) (l : List β) :
    (l.filter p).eraseDups = l.eraseDups.filter p := by
  induction l using eraseDups_induction with
  | nil => rfl
  | cons a rest ih =>
    rw [List.eraseDups_cons, List.filter_cons, List.filter_cons]
    cases ha : p a with
    | true =>
      rw [if_pos rfl, if_pos rfl, List.eraseDups_cons, List.filter_comm, ih]
    | false =>
      -- What is left out is not repeated among what is kept.
      have hsame : (rest.filter fun b => !b == a).filter p = rest.filter p := by
        rw [List.filter_filter]
        refine List.filter_congr fun b _ => ?_
        by_cases hb : b = a
        · rw [hb, ha, Bool.false_and]
        · simp [hb]
      rw [if_neg Bool.false_ne_true, if_neg Bool.false_ne_true, ← ih, hsame]

/-- The facets of a diamond: each address once where it comes first, without the zero address. -/
def facets (targets : List (List UInt8)) : List String :=
  (targets.eraseDups.filter (· != Address.zeroBytes)).map Address.ofBytes

theorem distinctNonzero_map_ofBytes (targets : List (List UInt8)) :
    distinctNonzero (targets.map Address.ofBytes) = facets targets := by
  have hkept : ((· != Address.zero) ∘ Address.ofBytes) = (· != Address.zeroBytes) := by
    funext bytes
    simp only [Function.comp_apply, bne, Bool.not_inj_iff]
    exact Bool.eq_iff_iff.2 (by rw [beq_iff_eq, beq_iff_eq, Address.ofBytes_eq_zero_iff])
  rw [distinctNonzero, List.filter_map, hkept, eraseDups_map Address.ofBytes_injective,
    eraseDups_filter, facets]

theorem facets_eq_nil_iff {targets : List (List UInt8)} :
    facets targets = [] ↔ ∀ target ∈ targets, target = Address.zeroBytes := by
  simp [facets, List.filter_eq_nil_iff]

theorem facetsOfAnswer_of_ok {text : String} {targets : List (List UInt8)}
    (h : (answerBytes text).bind Evm.Abi.addresses = .ok targets) :
    facetsOfAnswer (.str text) = .ok (facets targets) := by
  have htext : textOf "facetAddresses()" (.str text) = .ok text := rfl
  unfold facetsOfAnswer
  rw [htext, ← distinctNonzero_map_ofBytes]
  dsimp only [bind, Except.bind] at h ⊢
  rw [h]
  rfl

theorem facetsOfAnswer_of_addresses {data : List UInt8} {text : String} (h : Hex.Spells data text)
    {targets : List (List UInt8)} (hread : Evm.Abi.addresses data = .ok targets) :
    facetsOfAnswer (.str text) = .ok (facets targets) := by
  refine facetsOfAnswer_of_ok ?_
  rw [answerBytes_of_spells h]
  exact hread

theorem gives_facetsOfAnswer_nil {data : List UInt8} {text : String} (h : Hex.Spells data text)
    (hread : ∀ targets, Evm.Abi.addresses data ≠ .ok targets) :
    Gives (facetsOfAnswer (.str text)) [] := by
  refine gives_of_ne_ok (fun found hfound => ?_) fun f h => (blames_of_facets h).isOwn
  obtain ⟨answer, hanswer, hfound⟩ := bind_eq_ok_iff.1 hfound
  obtain rfl := Except.ok.inj hanswer
  split at hfound
  · rename_i targets htargets
    rw [answerBytes_of_spells h] at htargets
    exact hread targets htargets
  · cases hfound

/-- The question of a diamond, and how its answer is read. -/
theorem inquiry_of_diamond {m : Match} (hm : m.pattern = .diamond) (address : String) :
    ∃ request, inquiry m address = .reading request facetsOfAnswer := by
  have haccessor : (Catalog.row m.pattern).accessor ≠ none := by
    rw [hm]
    decide
  have hmethod : (Catalog.row m.pattern).method = .facetEnumeration := by rw [hm]; rfl
  obtain ⟨selector, hselector⟩ := exists_selectorFor m haccessor
  refine ⟨.callOf address (.str selector), ?_⟩
  unfold inquiry
  dsimp only
  rw [hmethod, hselector]
  rfl

/-- On nodes that refuse every request a diamond gets no facets. -/
theorem go_resolve_of_refuses {α : Type} [Seconds α] {out : Outside α}
    (hout : ∀ sent p, (out.reply sent p).delivery.Refuses) {l : Line α} {urls : List Json}
    (hends : l.client.endpoints = .list urls) (hurls : urls ≠ []) {m : Match} (hm : m.pattern = .diamond)
    (chain : Option Int) (address : String) :
    ((resolve out chain m address).go l).1 = .ok none := by
  obtain ⟨request, hinquiry⟩ := inquiry_of_diamond hm address
  obtain ⟨reason, hasked⟩ := Line.go_ask_of_refuses hout hends hurls request
  have hrun : (((inquiry m address).run out).go l).1 = .error (.request reason) := by
    rw [hinquiry]
    change ((Line.ask out request >>= fun answer => Act.lift (facetsOfAnswer answer)).go l).1 = _
    rw [Act.go_bind_of_error hasked]
  rw [resolve_eq_report, Act.go_bind, Act.go_outcome, hrun]
  rfl

theorem settles_of_diamond {m : Match} (hm : m.pattern = .diamond) {text : String} {found : List String}
    (h : Gives (facetsOfAnswer (.str text)) found) : Settles m text found := by
  refine settles_of_reading fun address => ?_
  obtain ⟨request, hinquiry⟩ := inquiry_of_diamond hm address
  exact ⟨request, facetsOfAnswer, hinquiry, h⟩

/-- A diamond is resolved to all its facets or to none. From a whole list it gets every facet, whatever
follows the list; from a list that is cut short, wherever it is cut, or in which a word is no address, it
gets none. -/
theorem facets_all_or_none {m : Match} (hm : m.pattern = .diamond) :
    (∀ targets : List (List UInt8), (∀ target ∈ targets, target.length = 20) →
        targets.length < 256 ^ 32 →
      (∀ rest text, Hex.Spells (Evm.Abi.listOf (targets.map Evm.Abi.wordOf) ++ rest) text →
        Settles m text (facets targets)) ∧
      (resolved? m (facets targets) = none ↔ ∀ target ∈ targets, target = Address.zeroBytes) ∧
      ∀ k < (Evm.Abi.listOf (targets.map Evm.Abi.wordOf)).length, ∀ text,
        Hex.Spells ((Evm.Abi.listOf (targets.map Evm.Abi.wordOf)).take k) text → Settles m text []) ∧
    ∀ words : List (List UInt8), (∀ w ∈ words, w.length = 32) → words.length < 256 ^ 32 →
      (∃ w ∈ words, ∃ b ∈ w.take 12, b ≠ 0) →
      ∀ rest text, Hex.Spells (Evm.Abi.listOf words ++ rest) text → Settles m text [] := by
  refine ⟨fun targets htargets hfew => ⟨fun rest text htext => ?_, ?_, fun k hk text htext => ?_⟩,
    fun words hwords hfew hdirty rest text htext => ?_⟩
  · have hread := Evm.Abi.addresses_listOf_wordOf htargets hfew rest
    apply settles_of_diamond hm
    rw [facetsOfAnswer_of_addresses htext hread]
    exact .found _
  · rw [resolved?_eq_none_iff, facets_eq_nil_iff]
  · exact settles_of_diamond hm (gives_facetsOfAnswer_nil htext
      (Evm.Abi.addresses_take_listOf (Evm.Abi.length_of_mem_map_wordOf htargets)
        (by rwa [List.length_map]) hk))
  · exact settles_of_diamond hm (gives_facetsOfAnswer_nil htext
      (Evm.Abi.addresses_listOf_of_dirty hwords hfew hdirty rest))

/-- From a list with a repetition and the zero address two facets are found, from its start none. -/
theorem facets_of_repeated :
    let m : Match := { pattern := .diamond }
    let first : List UInt8 := List.replicate 20 0x1a
    let second : List UInt8 := List.replicate 20 0x2b
    let data := Evm.Abi.listOf ([first, Address.zeroBytes, first, second].map Evm.Abi.wordOf)
    let text (bytes : List UInt8) := String.ofList ('0' :: 'x' :: Hex.encode bytes)
    let l : Line Rat := ⟨⟨.list [.str "http://rpc"], 3, 30, 0, 0, 0, .none⟩, { clock := 0 }⟩
    let nodes (bytes : List UInt8) : Outside Rat :=
      .replying (.http 200 (.document (.obj [("result", .str (text bytes))])))
    m.pattern = .diamond ∧
      ((resolve (nodes (data ++ [7])) (some 1) m "0x1").go l).1 =
        .ok (some ⟨.diamond, .facetEnumeration, [Address.ofBytes first, Address.ofBytes second]⟩) ∧
      ((resolve (nodes (data.take 100)) (some 1) m "0x1").go l).1 = .ok none := by
  intro m first second data text l nodes
  obtain ⟨hlists, -⟩ := facets_all_or_none (m := m) rfl
  obtain ⟨hwhole, -, hcut⟩ := hlists [first, Address.zeroBytes, first, second] (by decide) (by decide)
  have hdata : 100 < data.length := by
    rw [Evm.Abi.length_listOf (Evm.Abi.length_of_mem_map_wordOf (by decide))]
    decide
  refine ⟨rfl, ?_, ?_⟩
  · exact (hwhole [7] _ (Hex.spells_encode _)).go_resolve rfl (List.cons_ne_nil _ _) (by decide) _ _
  · exact (hcut 100 hdata _ (Hex.spells_encode _)).go_resolve rfl (List.cons_ne_nil _ _) (by decide) _ _

end Facets

section Words

def foundIn (target : List UInt8) : List String :=
  if target = Address.zeroBytes then [] else [Address.ofBytes target]

theorem toList_nonzero?_ofBytes (target : List UInt8) :
    (nonzero? (Address.ofBytes target)).toList = foundIn target := by
  unfold nonzero? foundIn
  simp only [beq_iff_eq, Address.ofBytes_eq_zero_iff]
  split <;> rfl

theorem length_clean_of_spells {bytes : List UInt8} {text : String} (h : Hex.Spells bytes text) :
    (Hex.clean text).length = 2 * bytes.length := by
  rw [← List.length_map Char.toLower, h.toLower_clean, Hex.length_encode]

/-- A text that spells something is not one that stands for nothing. -/
theorem ne_blank_of_spells {bytes : List UInt8} {text : String} (h : Hex.Spells bytes text)
    (hbytes : bytes ≠ []) : (text.isEmpty || text == "0x") = false := by
  have hlength := length_clean_of_spells h
  have hpos := List.length_pos_iff.2 hbytes
  rw [Bool.or_eq_false_iff]
  constructor
  · rw [Bool.eq_false_iff, ne_eq, String.isEmpty_iff]
    rintro rfl
    have hnone : (Hex.clean "").length = 0 := rfl
    omega
  · rw [beq_eq_false_iff_ne]
    rintro rfl
    have hnone : (Hex.clean "0x").length = 0 := rfl
    omega

variable {high target : List UInt8}

/-- The address in the low part of a word is found whatever the high part is. -/
theorem ofWord?_of_spells (hhigh : high.length = 12) (htarget : target.length = 20) {word : String}
    (h : Hex.Spells (high ++ target) word) : Address.ofWord? word = nonzero? (Address.ofBytes target) := by
  have hlength : (Hex.clean word).length = 64 := by
    rw [length_clean_of_spells h, List.length_append, hhigh, htarget]
  have hlow : ((Hex.clean word).drop ((Hex.clean word).length - 40)).map Char.toLower =
      Hex.encode target := by
    have htwelve : (Hex.encode high).length = 24 := by rw [Hex.length_encode, hhigh]
    rw [hlength, List.map_drop, h.toLower_clean, Hex.encode_append, List.drop_left' htwelve]
  have hdigits : (Hex.encode target).all Hex.isDigit = true := by
    rw [List.all_eq_true]
    intro c hc
    obtain ⟨n, hn, rfl⟩ := Hex.mem_encode hc
    simp [Hex.isDigit, Hex.value?_digit hn]
  have hsome := ne_blank_of_spells h (List.ne_nil_of_length_pos (by rw [List.length_append]; omega))
  unfold Address.ofWord?
  dsimp only
  rw [hlow, hsome, hlength, hdigits]
  simp [nonzero?, Address.ofBytes]

theorem addressOfSlot_of_spells (hhigh : high.length = 12) (htarget : target.length = 20) {text : String}
    (h : Hex.Spells (high ++ target) text) :
    addressOfSlot (.str text) = .ok (nonzero? (Address.ofBytes target)) := by
  rw [← ofWord?_of_spells hhigh htarget h]
  rfl

theorem addressOfAnswer_eq {text : String} (h : (text.isEmpty || text == "0x") = false) :
    addressOfAnswer (.str text) =
      match (answerBytes text).bind Evm.Abi.address with
      | .ok bytes => .ok (nonzero? (Address.ofBytes bytes))
      | .error reason => .error (.unresolvable s!"Accessor returned undecodable data: {reason}") := by
  change (if (text.isEmpty || text == "0x") = true then _ else _) = _
  rw [h]
  rfl

theorem addressOfAnswer_of_spells {data : List UInt8} {text : String} (h : Hex.Spells data text)
    (hread : Evm.Abi.address data = .ok target) :
    addressOfAnswer (.str text) = .ok (nonzero? (Address.ofBytes target)) := by
  have hdata : data ≠ [] := by
    have hlength := Evm.Abi.length_le_of_address hread
    exact List.ne_nil_of_length_pos (by omega)
  rw [addressOfAnswer_eq (ne_blank_of_spells h hdata), answerBytes_of_spells h]
  change (match Evm.Abi.address data with | .ok bytes => _ | .error _ => _) = _
  rw [hread]

theorem exists_address_of_addressOfAnswer {text : String} {found : Option String}
    (h : addressOfAnswer (.str text) = .ok found) :
    ∃ data target, answerBytes text = .ok data ∧ Evm.Abi.address data = .ok target := by
  obtain ⟨answer, hanswer, h⟩ := bind_eq_ok_iff.1 h
  obtain rfl := Except.ok.inj hanswer
  dsimp only at h
  split at h
  · cases h
  · split at h
    · rename_i target htarget
      obtain ⟨data, hdata, htarget⟩ := bind_eq_ok_iff.1 htarget
      exact ⟨data, target, hdata, htarget⟩
    · cases h

theorem gives_of_unread {text : String}
    (h : ∀ data, answerBytes text = .ok data → ∀ target, Evm.Abi.address data ≠ .ok target) :
    Gives ((addressOfAnswer (.str text)).map Option.toList) [] := by
  cases hanswer : addressOfAnswer (.str text) with
  | ok found =>
    obtain ⟨data, target, hdata, hread⟩ := exists_address_of_addressOfAnswer hanswer
    exact absurd hread (h data hdata target)
  | error f => exact .own (blames_of_answer hanswer).isOwn

theorem settles_of_slot {m : Match} (hm : (Catalog.row m.pattern).method = .storageSlot)
    (hslot : m.slot ≠ none) {text : String} {found : Option String}
    (h : addressOfSlot (.str text) = .ok found) : Settles m text found.toList := by
  obtain ⟨slot, hslot⟩ := Option.ne_none_iff_exists'.1 hslot
  refine settles_of_reading fun address => ?_
  let key := if slot == Catalog.ownAddressSlot then Address.slot address else slot
  refine ⟨.slotOf address key, fun answer => (addressOfSlot answer).map Option.toList, ?_, ?_⟩
  · unfold inquiry slotInquiry
    dsimp only
    rw [hm, hslot]
    rfl
  · dsimp only
    rw [h]
    exact .found _

theorem accessor_of_accessorCall {p : Pattern} (h : (Catalog.row p).method = .accessorCall) :
    (Catalog.row p).accessor ≠ none := by
  revert h
  cases p <;> decide

theorem settles_of_accessor {m : Match} (hm : (Catalog.row m.pattern).method = .accessorCall)
    {text : String} {found : List String}
    (h : Gives ((addressOfAnswer (.str text)).map Option.toList) found) : Settles m text found := by
  obtain ⟨selector, hselector⟩ := exists_selectorFor m (accessor_of_accessorCall hm)
  refine settles_of_reading fun address => ?_
  refine ⟨.callOf address (.str selector),
    fun answer => (addressOfAnswer answer).map Option.toList, ?_, h⟩
  unfold inquiry
  dsimp only
  rw [hm, hselector]
  rfl

/-- The word of an accessor is read as an address when there are zeros in front of it, and not otherwise. -/
theorem gives_addressOfAnswer (hhigh : high.length = 12) (htarget : target.length = 20)
    {rest : List UInt8} {text : String} (h : Hex.Spells (high ++ target ++ rest) text) :
    Gives ((addressOfAnswer (.str text)).map Option.toList)
      (if high = List.replicate 12 0 then foundIn target else []) := by
  have hword : (high ++ target).length = 32 := by rw [List.length_append, hhigh, htarget]
  have haddress := Evm.Abi.address_append hword rest
  split
  · rename_i hzeros
    have hread : Evm.Abi.address (high ++ target ++ rest) = .ok target := by
      rw [haddress, hzeros]
      exact Evm.Abi.addressOfWord_wordOf
    rw [addressOfAnswer_of_spells h hread, ← toList_nonzero?_ofBytes]
    exact .found _
  · rename_i hzeros
    have hdirty : ∃ b ∈ (high ++ target).take 12, b ≠ 0 := by
      rw [List.take_left' hhigh]
      by_contra hnone
      exact hzeros (List.eq_replicate_iff.2 ⟨hhigh, by simpa using hnone⟩)
    refine gives_of_unread fun data hdata found hread => ?_
    rw [answerBytes_of_spells h] at hdata
    obtain rfl := Except.ok.inj hdata
    rw [haddress] at hread
    exact Evm.Abi.addressOfWord_of_dirty hdirty found hread

theorem spells_slot {s : String} (htarget : target.length = 20) (h : Hex.Spells target s) :
    Hex.Spells (List.replicate 12 0 ++ target) (Address.slot s) := by
  have hlower : Text.lowerFrom [] (Hex.clean s) = Hex.encode target := by
    rw [Text.lowerFrom_of_ascii, h.toLower_clean]
    intro c hc
    obtain ⟨n, -, hn⟩ := Hex.exists_value?_of_mem h.toLower_clean hc
    exact Hex.value?_ascii hn
  have hzeros : Hex.encode (List.replicate 12 0) = List.replicate 24 '0' := by decide
  have hslot : Address.slot s =
      String.ofList ('0' :: 'x' :: Hex.encode (List.replicate 12 0 ++ target)) := by
    unfold Address.slot
    dsimp only
    rw [hlower, Hex.length_encode, htarget, Hex.encode_append, hzeros]
    rfl
  rw [hslot]
  exact Hex.spells_encode _

/-- The address that is taken from the slot of an accepted spelling is its normal form. -/
theorem ofWord?_slot {s address : String} (h : Address.normalize? s = some address) :
    Address.ofWord? (Address.slot s) = nonzero? address := by
  obtain ⟨bytes, hlength, hspells, rfl⟩ := Address.exists_spells_of_normalize? h
  exact ofWord?_of_spells (List.length_replicate) hlength (spells_slot hlength hspells)

/-- A word that holds an address is resolved to this address where it is read from a slot, whatever stands
in front of the address; and where an accessor answers with it, whatever follows, exactly when there are
zeros in front. An answer of an accessor that is no word is not resolved. A slot whose key is made of an
address that is not zero holds its normal form. -/
theorem slot_and_accessor_agree (high target : List UInt8) (hhigh : high.length = 12)
    (htarget : target.length = 20) :
    (∀ (m : Match) text, (Catalog.row m.pattern).method = .storageSlot → m.slot ≠ none →
      Hex.Spells (high ++ target) text → Settles m text (foundIn target)) ∧
    (∀ (m : Match) text rest, (Catalog.row m.pattern).method = .accessorCall →
      Hex.Spells (high ++ target ++ rest) text →
        Settles m text (if high = List.replicate 12 0 then foundIn target else [])) ∧
    (∀ (m : Match) text, (Catalog.row m.pattern).method = .accessorCall →
      (∀ data, Hex.decode (Hex.clean text) = .ok data → data.length < 32) → Settles m text []) ∧
    ∀ s address, Address.normalize? s = some address → address ≠ Address.zero →
      Address.ofWord? (Address.slot s) = some address := by
  refine ⟨fun m text hm hslot htext => ?_, fun m text rest hm htext => ?_, fun m text hm hshort => ?_,
    fun s address hs hne => ?_⟩
  · rw [← toList_nonzero?_ofBytes]
    exact settles_of_slot hm hslot (addressOfSlot_of_spells hhigh htarget htext)
  · exact settles_of_accessor hm (gives_addressOfAnswer hhigh htarget htext)
  · refine settles_of_accessor hm (gives_of_unread fun data hdata found hread => ?_)
    have hlength := Evm.Abi.length_le_of_address hread
    have hdecode : Hex.decode (Hex.clean text) = .ok data := by
      unfold answerBytes at hdata
      generalize Hex.decode (Hex.clean text) = r at hdata
      cases r with
      | ok data' => rw [Except.ok.inj hdata]
      | error pos => cases hdata
    have := hshort data hdecode
    omega
  · rw [ofWord?_slot hs, nonzero?, if_neg (by simpa using hne)]

/-- A dirty word is resolved where it is read from a slot and not where an accessor answers with it, nor is
an answer of one byte. -/
theorem dirty_word_only_in_slot :
    let high : List UInt8 := 1 :: List.replicate 11 0
    let target : List UInt8 := List.replicate 20 0xab
    let dirty := String.ofList ('0' :: 'x' :: Hex.encode (high ++ target))
    let slotted : Match := { pattern := .eip1967, slot := Catalog.eip1967Slot }
    let called : Match := { pattern := .legacyUpgradeable }
    let l : Line Rat := ⟨⟨.list [.str "http://rpc"], 3, 30, 0, 0, 0, .none⟩, { clock := 0 }⟩
    let nodes (text : String) : Outside Rat :=
      .replying (.http 200 (.document (.obj [("result", .str text)])))
    high.length = 12 ∧ target.length = 20 ∧
      ((resolve (nodes dirty) (some 1) slotted "0x1").go l).1 =
        .ok (some ⟨.eip1967, .storageSlot, [Address.ofBytes target]⟩) ∧
      ((resolve (nodes dirty) (some 1) called "0x1").go l).1 = .ok none ∧
      ((resolve (nodes "0x00") (some 1) called "0x1").go l).1 = .ok none ∧
      Address.ofWord? (Address.slot "0XABabABabABabABabABabABabABabABabABabABab") =
        some (Address.ofBytes target) := by
  intro high target dirty slotted called l nodes
  obtain ⟨hslot, haccessor, hshort, hkey⟩ :=
    slot_and_accessor_agree high target (by decide) (by decide)
  have hdirty : high ≠ List.replicate 12 0 := by decide
  have hnone := haccessor called dirty [] rfl (by rw [List.append_nil]; exact Hex.spells_encode _)
  rw [if_neg hdirty] at hnone
  have hbyte : Settles called "0x00" [] := by
    refine hshort called "0x00" rfl fun data hdata => ?_
    have hread : Hex.decode (Hex.clean "0x00") = .ok [0] := eq_ok_of_toOption (by decide +kernel)
    rw [← Except.ok.inj (hread.symm.trans hdata)]
    decide
  refine ⟨by decide, by decide, ?_, ?_, ?_, hkey _ _ (by decide +kernel) (by decide +kernel)⟩
  · exact (hslot slotted dirty rfl (by simp [slotted]) (Hex.spells_encode _)).go_resolve rfl
      (List.cons_ne_nil _ _) (by decide) _ _
  · exact hnone.go_resolve rfl (List.cons_ne_nil _ _) (by decide) _ _
  · exact hbyte.go_resolve rfl (List.cons_ne_nil _ _) (by decide) _ _

end Words

end Resolution

end ProxyCensus
