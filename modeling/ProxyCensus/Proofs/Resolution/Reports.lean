import ProxyCensus.Proofs.Resolution.Answers
import ProxyCensus.Proofs.Resolution.Leads
import ProxyCensus.Proofs.Rpc.Trials

/-!
# What a resolution reports

A resolution that returns nothing writes one message of its own, and one that returns a contract or fails
writes none. Main statement: the message is a warning unless every question was answered and what was read
is blank, a word without an address, the zero address or no facets; then it is no warning.
-/

namespace ProxyCensus

open Act (Keeps Leads)

variable {α β : Type}

def Journal.messagesOf (logger : String) (j : Journal α) : List LogRecord :=
  j.logs.toList.filter (·.logger == logger)

theorem Journal.messagesOf_log (j : Journal α) (level : Level) (writer message logger : String) :
    ((Journal.log level writer message).go j).2.messagesOf logger =
      j.messagesOf logger ++ if writer = logger then [⟨level, writer, message⟩] else [] := by
  change (j.logs.push ⟨level, writer, message⟩).toList.filter _ = _
  rw [Array.toList_push, List.filter_append, List.filter_singleton, Bool.cond_eq_ite]
  simp only [beq_iff_eq]
  rfl

namespace Line

/-- From one state of a line to another a part of the program has written nothing. -/
def Unheard (logger : String) (l l' : Line α) : Prop :=
  l'.journal.messagesOf logger = l.journal.messagesOf logger

instance {logger : String} : Std.Refl (Unheard (α := α) logger) where
  refl _ := rfl

instance {logger : String} : IsTrans (Line α) (Unheard logger) where
  trans _ _ _ h h' := Eq.trans h' h

theorem unheard_writing {logger : String} {x : Act (Journal α) β} (h : Keeps Journal.logs x) :
    Leads (Unheard logger) (writing x) := by
  intro l
  change (x.go l.journal).2.messagesOf logger = _
  rw [Journal.messagesOf, h l.journal]
  rfl

theorem unheard_adjust {logger : String} (f : Client α → Client α) :
    Leads (Unheard logger) (adjust f) :=
  fun _ => rfl

section Questions

variable {logger : String} (hother : logger ≠ "Rpc Client")

include hother

theorem unheard_log (level : Level) (message : String) :
    Leads (Unheard logger) (log level message : Act (Line α) Unit) := by
  intro l
  refine (l.journal.messagesOf_log level _ message logger).trans ?_
  rw [if_neg (Ne.symm hother), List.append_nil]

omit hother in
theorem unheard_connect : Leads (Unheard logger) (connect : Act (Line α) Unit) :=
  leads_connect (fun _ => unheard_writing fun _ => rfl) (unheard_adjust _)

variable [Seconds α] (out : Outside α)

theorem unheard_ask (request : Request) : Leads (Unheard logger) (ask out request) := by
  have hrests : Rests out (Unheard (α := α) logger) :=
    ⟨unheard_log hother, unheard_writing fun _ => rfl, fun _ => unheard_writing fun _ => rfl⟩
  refine leads_askAmid hrests unheard_connect fun attempt url => ?_
  exact hrests.tryUrl (fun _ _ _ _ => rfl) (fun _ => unheard_writing fun _ => rfl) (.pure ())

end Questions

end Line

namespace Resolution

def resolver : String := "Implementation Resolver Service"

theorem messagesOf_resolver_log (level : Level) (message : String) (l : Line α) :
    ((log level message).go l).2.journal.messagesOf resolver =
      l.journal.messagesOf resolver ++ [⟨level, resolver, message⟩] :=
  l.journal.messagesOf_log level _ message resolver

/-- A message that names the pattern of a match, the address of a contract and its chain. -/
def Names (chain : Option Int) (m : Match) (address : String) (r : LogRecord) : Prop :=
  ∃ before behind, r.message =
    before ++ s!"{m.pattern.name} for {address} on chain {chainText chain}" ++ behind

/-- What a resolution has written itself when its inquiry has ended in some way, and with what it
returns. -/
inductive Reports (chain : Option Int) (m : Match) (address : String) :
    Except Failure (List String) → Except Failure (Option Resolved) → List LogRecord → Prop
  | blank {r : LogRecord} (hlevel : r.level = .debug) (hnames : Names chain m address r) :
    Reports chain m address (.ok []) (.ok none) [r]
  | found {found : List String} (r : Resolved) (h : found ≠ []) :
    Reports chain m address (.ok found) (.ok (some r)) []
  | warned {f : Failure} {r : LogRecord} (hown : isOwn f = true) (hlevel : r.level = .warning)
    (hnames : Names chain m address r) : Reports chain m address (.error f) (.ok none) [r]
  | failed {f : Failure} (h : isOwn f = false) : Reports chain m address (.error f) (.error f) []

theorem report_reports (chain : Option Int) (m : Match) (address : String)
    (r : Except Failure (List String)) (l : Line α) :
    ∃ written, ((report chain m address r).go l).2.journal.messagesOf resolver =
        l.journal.messagesOf resolver ++ written ∧
      Reports chain m address r ((report chain m address r).go l).1 written := by
  rcases r with f | _ | ⟨a, rest⟩
  · dsimp only [report]
    by_cases hown : isOwn f = true
    · rw [if_pos hown]
      refine ⟨[_], messagesOf_resolver_log _ _ l,
        .warned hown rfl ⟨"Could not resolve ", s!": {f.message}", ?_⟩⟩
      simp only [String.append_assoc]
      rfl
    · rw [if_neg hown]
      exact ⟨[], (List.append_nil _).symm, .failed (Bool.eq_false_iff.2 hown)⟩
  · refine ⟨[_], messagesOf_resolver_log _ _ l, .blank rfl ⟨"", " resolved to the zero address", ?_⟩⟩
    rw [String.empty_append]
    rfl
  · exact ⟨[], (List.append_nil _).symm, .found _ (List.cons_ne_nil _ _)⟩

variable [Seconds α] (out : Outside α)

/-- What a resolution writes is what it makes of how its inquiry has ended. -/
theorem resolve_reports (chain : Option Int) (m : Match) (address : String) (l : Line α) :
    ∃ written, ((resolve out chain m address).go l).2.journal.messagesOf resolver =
        l.journal.messagesOf resolver ++ written ∧
      Reports chain m address ((addresses out m address).go l).1
        ((resolve out chain m address).go l).1 written := by
  have hother : resolver ≠ "Rpc Client" := by decide
  have hasked : ((addresses out m address).go l).2.journal.messagesOf resolver =
      l.journal.messagesOf resolver :=
    run_inquiry out m address ▸ Inquiry.leads_run (Line.unheard_ask hother out) (inquiry m address) l
  rw [resolve_eq_report, run_inquiry, Act.go_bind, Act.go_outcome, ← hasked]
  exact report_reports chain m address _ _

end Resolution

namespace Address

/-- A word that no address is read from: it has fewer than forty digits, or its last forty digits are not
hexadecimal or all zero. -/
def Vacant (word : String) : Prop :=
  let digits := Hex.clean word
  let low := digits.drop (digits.length - 40)
  digits.length < 40 ∨ low.all Hex.isDigit = false ∨ low = List.replicate 40 '0'

theorem toLower_eq_zero_iff {c : Char} : c.toLower = '0' ↔ c = '0' := by
  constructor
  · intro h
    have hdigit : Hex.isDigit c = true := by rw [← Hex.isDigit_toLower, h]; decide
    obtain ⟨n, hn⟩ := Option.isSome_iff_exists.1 hdigit
    have hsmall := Hex.value?_ascii hn
    have hall : ∀ k : Fin 128, (Char.ofNat k).toLower = '0' → Char.ofNat k = '0' := by decide
    have := hall ⟨c.toNat, hsmall⟩
    rw [Char.ofNat_toNat] at this
    exact this h
  · rintro rfl
    rfl

theorem map_toLower_eq_zeros_iff {low : List Char} {n : Nat} :
    low.map Char.toLower = List.replicate n '0' ↔ low = List.replicate n '0' := by
  simp only [List.eq_replicate_iff, List.length_map, List.forall_mem_map, toLower_eq_zero_iff]

theorem ofList_eq_zero_iff {low : List Char} :
    String.ofList ('0' :: 'x' :: low.map Char.toLower) = zero ↔ low = List.replicate 40 '0' := by
  have hzero : zero = String.ofList ('0' :: 'x' :: List.replicate 40 '0') := by decide +kernel
  rw [hzero, String.ofList_inj, List.cons_inj_right, List.cons_inj_right,
    map_toLower_eq_zeros_iff]

theorem ofWord?_eq_none_iff {word : String} : ofWord? word = none ↔ Vacant word := by
  have hblank : (word.isEmpty || word == "0x") = true → (Hex.clean word).length < 40 := by
    rw [Bool.or_eq_true, String.isEmpty_iff, beq_iff_eq]
    rintro (rfl | rfl)
    · decide
    · decide
  unfold ofWord? Vacant
  dsimp only
  by_cases hshort : (Hex.clean word).length < 40
  · simp only [hshort, decide_true, Bool.or_true, if_true, true_or]
  · have hsome : (word.isEmpty || word == "0x") = false :=
      Bool.eq_false_iff.2 fun h => hshort (hblank h)
    generalize (Hex.clean word).drop _ = low
    have hlower : (low.map Char.toLower).all Hex.isDigit = low.all Hex.isDigit := by
      rw [List.all_map]
      exact congrArg low.all (funext Hex.isDigit_toLower)
    rw [hsome, hlower, if_neg (by simpa using hshort), ite_eq_left_iff]
    simp only [hshort, false_or, reduceCtorEq, imp_false, not_not, Bool.or_eq_true, beq_iff_eq,
      Bool.not_eq_true', ofList_eq_zero_iff]
    exact or_comm

end Address

namespace Resolution

theorem addressOfSlot_eq_none_iff {answer : Json} :
    addressOfSlot answer = .ok none ↔ ∃ word, answer = .str word ∧ Address.Vacant word := by
  constructor
  · intro h
    obtain ⟨word, hword, h⟩ := bind_eq_ok_iff.1 h
    cases answer with
    | str s =>
      obtain rfl := Except.ok.inj hword
      exact ⟨s, rfl, Address.ofWord?_eq_none_iff.1 (Except.ok.inj h)⟩
    | _ => cases hword
  · rintro ⟨word, rfl, h⟩
    exact congrArg Except.ok (Address.ofWord?_eq_none_iff.2 h)

/-- A text that spells a word of zeros, whatever follows it. -/
def ZeroWord (text : String) : Prop :=
  ∃ rest, answerBytes text = .ok (Evm.Abi.wordOf Address.zeroBytes ++ rest)

theorem nonzero?_ofBytes_eq_none_iff {target : List UInt8} :
    nonzero? (Address.ofBytes target) = none ↔ target = Address.zeroBytes := by
  unfold nonzero?
  simp only [beq_iff_eq, Address.ofBytes_eq_zero_iff, ite_eq_left_iff, reduceCtorEq, imp_false, not_not]

theorem address_eq_zeroBytes_iff {data : List UInt8} :
    Evm.Abi.address data = .ok Address.zeroBytes ↔
      ∃ rest, data = Evm.Abi.wordOf Address.zeroBytes ++ rest := by
  constructor
  · intro h
    obtain ⟨⟨w, rest⟩, hw, -⟩ := bind_eq_ok_iff.1 h
    obtain ⟨rfl, hlength⟩ := Evm.Abi.eq_append_of_word hw
    refine ⟨rest, congrArg (· ++ rest) ?_⟩
    rw [Evm.Abi.address_append hlength] at h
    unfold Evm.Abi.addressOfWord at h
    dsimp only at h
    split at h
    · rename_i hzeros
      have htake : w.take 12 = List.replicate 12 0 :=
        List.eq_replicate_iff.2 ⟨by rw [List.length_take]; omega, by simpa using hzeros⟩
      rw [Evm.Abi.wordOf, ← Except.ok.inj h, ← htake, List.take_append_drop]
    · cases h
  · rintro ⟨rest, rfl⟩
    rw [Evm.Abi.address_append (by decide), Evm.Abi.addressOfWord_wordOf]

/-- The address at the start of an answer is found unless it is zero. -/
theorem addressOfAnswer_of_answerBytes {text : String} {data target : List UInt8}
    (h : answerBytes text = .ok data) (hread : Evm.Abi.address data = .ok target) :
    addressOfAnswer (.str text) = .ok (nonzero? (Address.ofBytes target)) := by
  have hlength := Evm.Abi.length_le_of_address hread
  have hsome : (text.isEmpty || text == "0x") = false := by
    rw [Bool.eq_false_iff, ne_eq, Bool.or_eq_true, String.isEmpty_iff, beq_iff_eq]
    rintro (rfl | rfl)
    · obtain rfl := Except.ok.inj ((eq_ok_of_toOption (by decide)).symm.trans h : Except.ok [] = _)
      exact absurd hlength (by decide)
    · obtain rfl := Except.ok.inj ((eq_ok_of_toOption (by decide)).symm.trans h : Except.ok [] = _)
      exact absurd hlength (by decide)
  have hbytes : (answerBytes text).bind Evm.Abi.address = .ok target := by
    rw [h]
    exact hread
  rw [addressOfAnswer_eq hsome, hbytes]

theorem addressOfAnswer_eq_none_iff {answer : Json} :
    addressOfAnswer answer = .ok none ↔ ∃ text, answer = .str text ∧ ZeroWord text := by
  constructor
  · intro h
    obtain ⟨text, htext, -⟩ := bind_eq_ok_iff.1 h
    cases answer with
    | str s =>
      obtain ⟨data, target, hdata, hread⟩ := exists_address_of_addressOfAnswer h
      rw [addressOfAnswer_of_answerBytes hdata hread] at h
      obtain rfl := nonzero?_ofBytes_eq_none_iff.1 (Except.ok.inj h)
      obtain ⟨rest, rfl⟩ := address_eq_zeroBytes_iff.1 hread
      exact ⟨s, rfl, rest, hdata⟩
    | _ => cases htext
  · rintro ⟨text, rfl, rest, htext⟩
    rw [addressOfAnswer_of_answerBytes htext (address_eq_zeroBytes_iff.2 ⟨rest, rfl⟩),
      nonzero?_ofBytes_eq_none_iff.2 rfl]

/-- A text that spells a list of facets all of which are zero; it may be empty. -/
def NoFacets (text : String) : Prop :=
  ∃ data targets, answerBytes text = .ok data ∧ Evm.Abi.addresses data = .ok targets ∧
    ∀ target ∈ targets, target = Address.zeroBytes

theorem facetsOfAnswer_eq_ok_iff {text : String} {found : List String} :
    facetsOfAnswer (.str text) = .ok found ↔ ∃ data targets, answerBytes text = .ok data ∧
      Evm.Abi.addresses data = .ok targets ∧ found = facets targets := by
  cases hread : (answerBytes text).bind Evm.Abi.addresses with
  | ok targets =>
    obtain ⟨data, hdata, htargets⟩ := bind_eq_ok_iff.1 hread
    rw [facetsOfAnswer_of_ok hread]
    constructor
    · intro h
      exact ⟨data, targets, hdata, htargets, (Except.ok.inj h).symm⟩
    · rintro ⟨data', targets', hdata', htargets', rfl⟩
      rw [hdata] at hdata'
      obtain rfl := Except.ok.inj hdata'
      rw [Except.ok.inj (htargets.symm.trans htargets')]
  | error reason =>
    obtain ⟨f, hfails⟩ : ∃ f, facetsOfAnswer (.str text) = .error f := by
      refine ⟨.unresolvable s!"facetAddresses() returned undecodable data: {reason}", ?_⟩
      have htext : textOf "facetAddresses()" (.str text) = .ok text := rfl
      unfold facetsOfAnswer
      rw [htext]
      dsimp only [bind, Except.bind] at hread ⊢
      rw [hread]
      rfl
    rw [hfails]
    constructor
    · intro h
      cases h
    · rintro ⟨data, targets, hdata, htargets, -⟩
      rw [hdata] at hread
      cases htargets.symm.trans hread

theorem facetsOfAnswer_eq_nil_iff {answer : Json} :
    facetsOfAnswer answer = .ok [] ↔ ∃ text, answer = .str text ∧ NoFacets text := by
  constructor
  · intro h
    obtain ⟨text, htext, -⟩ := bind_eq_ok_iff.1 h
    cases answer with
    | str s =>
      obtain ⟨data, targets, hdata, htargets, hnil⟩ := facetsOfAnswer_eq_ok_iff.1 h
      exact ⟨s, rfl, data, targets, hdata, htargets, facets_eq_nil_iff.1 hnil.symm⟩
    | _ => cases htext
  · rintro ⟨text, rfl, data, targets, hdata, htargets, hzero⟩
    exact facetsOfAnswer_eq_ok_iff.2 ⟨data, targets, hdata, htargets, (facets_eq_nil_iff.2 hzero).symm⟩

section Blank

variable [Seconds α] (out : Outside α)

/-- A question that is answered with a text of some kind. -/
def Told (l : Line α) (request : Request) (kind : String → Prop) : Prop :=
  ∃ text, ((Line.ask out request).go l).1 = .ok (.str text) ∧ kind text

/-- Where the slot or the accessor of a beacon was asked for, what is read is blank. -/
def NoBeacon (m : Match) (address : String) (l : Line α) : Prop :=
  match m.slot with
  | some slot => Told out l (.slotOf address slot) Address.Vacant
  | none => Told out l (.callOf address (m.selector.elim .null .str)) ZeroWord

/-- Everything that a resolution asks is answered, and what it reads last is blank: no address, the zero
address, or no facets. -/
def Blank (m : Match) (address : String) (l : Line α) : Prop :=
  let row := Catalog.row m.pattern
  match row.method with
  | .bytecode => fromCode m = none
  | .storageSlot => ∃ slot, m.slot = some slot ∧
    Told out l (.slotOf address (if slot == Catalog.ownAddressSlot then Address.slot address else slot))
      Address.Vacant
  | .accessorCall => ∃ selector, selectorFor m row = some selector ∧
    Told out l (.callOf address (.str selector)) ZeroWord
  | .beacon => NoBeacon out m address l ∨
    ∃ beacon accessor l', (findBeacon out m address).go l = (.ok (some beacon), l') ∧
      row.accessor = some accessor ∧ Told out l' (.callOf beacon (.str accessor)) ZeroWord
  | .facetEnumeration => ∃ selector, selectorFor m row = some selector ∧
    Told out l (.callOf address (.str selector)) NoFacets

variable {out} {l : Line α}

theorem go_reading_eq_ok_iff {request : Request} {read : Json → Except Failure β} {b : β} :
    ((do Act.lift (read (← Line.ask out request)) : Act (Line α) β).go l).1 = .ok b ↔
      ∃ answer, ((Line.ask out request).go l).1 = .ok answer ∧ read answer = .ok b := by
  cases hask : ((Line.ask out request).go l).1 with
  | ok answer =>
    rw [Act.go_bind_of_ok hask, Act.go_lift]
    simp
  | error f =>
    rw [Act.go_bind_of_error hask]
    simp

/-- A reading that is blank for texts of some kind is blank exactly when the question is answered with
such a text. -/
theorem go_reading_blank_iff {request : Request} {read : Json → Except Failure β} {b : β}
    {kind : String → Prop}
    (h : ∀ {answer}, read answer = .ok b ↔ ∃ text, answer = .str text ∧ kind text) :
    ((do Act.lift (read (← Line.ask out request)) : Act (Line α) β).go l).1 = .ok b ↔
      Told out l request kind := by
  rw [go_reading_eq_ok_iff]
  constructor
  · rintro ⟨answer, hask, hread⟩
    obtain ⟨text, rfl, hkind⟩ := h.1 hread
    exact ⟨text, hask, hkind⟩
  · rintro ⟨text, hask, hkind⟩
    exact ⟨_, hask, h.2 ⟨text, rfl, hkind⟩⟩

omit [Seconds α] in
theorem go_toList_eq_nil_iff {x : Act (Line α) (Option String)} :
    ((do return (← x).toList : Act (Line α) (List String)).go l).1 = .ok [] ↔ (x.go l).1 = .ok none := by
  cases hx : (x.go l).1 with
  | ok found =>
    rw [Act.go_bind_of_ok hx, Act.go_pure]
    cases found <;> simp
  | error f =>
    rw [Act.go_bind_of_error hx]
    simp

theorem fromSlot_eq_none_iff {m : Match} {address : String} :
    ((fromSlot out m address).go l).1 = .ok none ↔ ∃ slot, m.slot = some slot ∧
      Told out l (.slotOf address (if slot == Catalog.ownAddressSlot then Address.slot address else slot))
        Address.Vacant := by
  unfold fromSlot
  cases m.slot with
  | none => simp
  | some slot =>
    refine (go_reading_blank_iff addressOfSlot_eq_none_iff).trans ?_
    simp

theorem fromAccessor_eq_none_iff {address : String} {selector : Option String} :
    ((fromAccessor out address selector).go l).1 = .ok none ↔ ∃ s, selector = some s ∧
      Told out l (.callOf address (.str s)) ZeroWord := by
  unfold fromAccessor
  cases selector with
  | none => simp
  | some s =>
    refine (go_reading_blank_iff addressOfAnswer_eq_none_iff).trans ?_
    simp

theorem findBeacon_eq_none_iff {m : Match} {address : String} :
    ((findBeacon out m address).go l).1 = .ok none ↔ NoBeacon out m address l := by
  unfold findBeacon NoBeacon
  cases m.slot with
  | some slot => exact go_reading_blank_iff addressOfSlot_eq_none_iff
  | none =>
    cases m.selector with
    | some s => exact go_reading_blank_iff addressOfAnswer_eq_none_iff
    | none => exact go_reading_blank_iff addressOfAnswer_eq_none_iff

theorem fromBeacon_eq_none_iff {m : Match} {address : String} {accessor : Option String} :
    ((fromBeacon out m address accessor).go l).1 = .ok none ↔ NoBeacon out m address l ∨
      ∃ beacon s l', (findBeacon out m address).go l = (.ok (some beacon), l') ∧ accessor = some s ∧
        Told out l' (.callOf beacon (.str s)) ZeroWord := by
  rw [← findBeacon_eq_none_iff]
  unfold fromBeacon
  rw [Act.go_bind]
  rcases (findBeacon out m address).go l with ⟨f | beacon, l'⟩
  · simp
  · cases beacon with
    | none => simp
    | some beacon =>
      refine fromAccessor_eq_none_iff.trans ?_
      constructor
      · rintro ⟨s, hs, htold⟩
        exact .inr ⟨beacon, s, l', rfl, hs, htold⟩
      · rintro (h | ⟨beacon', s, l'', h, hs, htold⟩)
        · cases h
        · cases h
          exact ⟨s, hs, htold⟩

theorem fromFacets_eq_nil_iff {address : String} {selector : Option String} :
    ((fromFacets out address selector).go l).1 = .ok [] ↔ ∃ s, selector = some s ∧
      Told out l (.callOf address (.str s)) NoFacets := by
  unfold fromFacets
  cases selector with
  | none => simp
  | some s =>
    refine (go_reading_blank_iff facetsOfAnswer_eq_nil_iff).trans ?_
    simp

/-- No address is found, and no question or reading has failed, exactly when what is read is blank. -/
theorem addresses_eq_nil_iff {m : Match} {address : String} :
    ((addresses out m address).go l).1 = .ok [] ↔ Blank out m address l := by
  unfold addresses Blank
  dsimp only
  cases (Catalog.row m.pattern).method with
  | bytecode => cases fromCode m <;> simp
  | storageSlot => exact go_toList_eq_nil_iff.trans fromSlot_eq_none_iff
  | accessorCall => exact go_toList_eq_nil_iff.trans fromAccessor_eq_none_iff
  | beacon => exact go_toList_eq_nil_iff.trans fromBeacon_eq_none_iff
  | facetEnumeration => exact fromFacets_eq_nil_iff

/-- A resolution returns nothing exactly when what it has read is blank or a failure of its own came in
the way. It has then written one message of its own, which names the pattern, the address and the chain: a
warning exactly when what was read is not blank, and no more than a note for debugging when it is. A
resolution that returns a contract or fails has written none. -/
theorem warns_unless_blank (out : Outside α) (chain : Option Int) (m : Match) (address : String)
    (l : Line α) :
    ∃ written, ((resolve out chain m address).go l).2.journal.messagesOf resolver =
        l.journal.messagesOf resolver ++ written ∧
      (((resolve out chain m address).go l).1 = .ok none →
        ∃ r, written = [r] ∧ Names chain m address r ∧
          (r.level = .warning ↔ ¬ Blank out m address l) ∧
          (r.level = .debug ↔ Blank out m address l)) ∧
      (((resolve out chain m address).go l).1 ≠ .ok none → written = []) ∧
      (((resolve out chain m address).go l).1 = .ok none ↔ Blank out m address l ∨
        ∃ f, isOwn f = true ∧ ((addresses out m address).go l).1 = .error f) := by
  obtain ⟨written, hwritten, hreports⟩ := resolve_reports out chain m address l
  refine ⟨written, hwritten, ?_⟩
  rw [← addresses_eq_nil_iff]
  generalize ((addresses out m address).go l).1 = ended at hreports
  generalize ((resolve out chain m address).go l).1 = result at hreports
  cases hreports with
  | blank hlevel hnames =>
    refine ⟨fun _ => ⟨_, rfl, hnames, ?_, ?_⟩, fun hne => absurd rfl hne, by simp⟩
    · simp [hlevel]
    · simp [hlevel]
  | found r hfound => exact ⟨nofun, fun _ => rfl, by simp [hfound]⟩
  | warned hown hlevel hnames =>
    refine ⟨fun _ => ⟨_, rfl, hnames, ?_, ?_⟩, fun hne => absurd rfl hne, by simp [hown]⟩
    · simp [hlevel]
    · simp [hlevel]
  | failed hother => exact ⟨nofun, fun _ => rfl, by simp [hother]⟩

/-- A slot that holds zero is passed over in silence, and a node that gives no text is warned about. -/
theorem warns_unless_blank_of_slot :
    let word := String.ofList ('0' :: 'x' :: List.replicate 64 '0')
    let m : Match := { pattern := .eip1967, slot := some Catalog.eip1967Slot }
    let l : Line Rat := ⟨⟨.list [.str "http://rpc"], 3, 30, 0, 0, 0, .none⟩, { clock := 0 }⟩
    let nodes (answer : Json) : Outside Rat :=
      .replying (.http 200 (.document (.obj [("result", answer)])))
    (∃ r, ((resolve (nodes (.str word)) (some 1) m "0x1").go l).2.journal.messagesOf resolver = [r] ∧
      r.level = .debug) ∧
    ∃ r, ((resolve (nodes (.bool true)) (some 1) m "0x1").go l).2.journal.messagesOf resolver = [r] ∧
      r.level = .warning := by
  intro word m l nodes
  have hasked : ∀ answer, answer ≠ .null → ∀ request,
      ((Line.ask (nodes answer) request).go l).1 = .ok answer := by
    intro answer hnull request
    refine Line.go_ask_of_answers (fun _ _ => .result rfl ?_) rfl (List.cons_ne_nil _ _) (by decide) request
    exact hnull
  constructor
  · obtain ⟨written, hwritten, hnone, -, hreturns⟩ :=
      warns_unless_blank (nodes (.str word)) (some 1) m "0x1" l
    have hblank : Blank (nodes (.str word)) m "0x1" l :=
      ⟨Catalog.eip1967Slot, rfl, word, hasked _ Json.noConfusion _,
        Address.ofWord?_eq_none_iff.1 (by decide +kernel)⟩
    obtain ⟨r, rfl, -, -, hdebug⟩ := hnone (hreturns.2 (.inl hblank))
    exact ⟨r, hwritten, hdebug.2 hblank⟩
  · obtain ⟨written, hwritten, hnone, -, hreturns⟩ :=
      warns_unless_blank (nodes (.bool true)) (some 1) m "0x1" l
    obtain ⟨f, hf⟩ : ∃ f, addressOfSlot (.bool true) = .error f := ⟨_, rfl⟩
    have hslot : ((fromSlot (nodes (.bool true)) m "0x1").go l).1 = .error f := by
      change ((Line.ask (nodes (.bool true)) _ >>= fun answer =>
        Act.lift (addressOfSlot answer)).go l).1 = _
      rw [Act.go_bind_of_ok (hasked _ Json.noConfusion _), Act.go_lift, hf]
    have hfailed : ((addresses (nodes (.bool true)) m "0x1").go l).1 = .error f := by
      change ((fromSlot (nodes (.bool true)) m "0x1" >>= fun found => pure found.toList).go l).1 = _
      rw [Act.go_bind_of_error hslot]
    have htold : ¬ Blank (nodes (.bool true)) m "0x1" l := by
      rw [← addresses_eq_nil_iff, hfailed]
      exact nofun
    obtain ⟨r, rfl, -, hwarning, -⟩ :=
      hnone (hreturns.2 (.inr ⟨f, (blames_of_slot hf).isOwn, hfailed⟩))
    exact ⟨r, hwritten, hwarning.2 htold⟩

end Blank

end Resolution

end ProxyCensus
