import ProxyCensus.Proofs.Resolution.Reports

/-!
# What is taken from a slot

A slot is read by the last forty characters of the answer alone. Main statement: an address is taken from
an answer exactly when its last forty characters are digits and not all zero, whatever stands in front of
them; so one is taken from a text that is no hexadecimal word exactly when the other characters are all in
front. Without an address a match stays unresolved and a beacon is not asked.
-/

namespace ProxyCensus

namespace Address

variable {text address : String} {front low : List Char}

/-- A text of at least forty digits and of nothing else. -/
def IsWord (text : String) : Prop :=
  40 ≤ (Hex.clean text).length ∧ (Hex.clean text).all Hex.isDigit = true

instance (text : String) : Decidable (IsWord text) :=
  inferInstanceAs (Decidable (_ ∧ _))

/-- A text ends in forty digits that are not all zero. -/
structure EndsIn (text : String) (front low : List Char) : Prop where
  clean : Hex.clean text = front ++ low
  length : low.length = 40
  digits : low.all Hex.isDigit = true
  nonzero : low ≠ List.replicate 40 '0'

/-- Where an address is taken it is spelled by the last forty characters. -/
theorem eq_of_ofWord? (h : ofWord? text = some address) : address =
    String.ofList ('0' :: 'x' ::
      ((Hex.clean text).drop ((Hex.clean text).length - 40)).map Char.toLower) := by
  unfold ofWord? at h
  dsimp only at h
  split at h
  · cases h
  · split at h
    · cases h
    · exact (Option.some.inj h).symm

theorem ofWord?_eq_some_iff : ofWord? text = some address ↔
    ∃ front low, EndsIn text front low ∧
      address = String.ofList ('0' :: 'x' :: low.map Char.toLower) := by
  constructor
  · intro h
    have hsome : ¬ Vacant text := fun hvacant => by
      rw [ofWord?_eq_none_iff.2 hvacant] at h
      cases h
    simp only [Vacant, not_or, Nat.not_lt, Bool.not_eq_false] at hsome
    obtain ⟨hlong, hdigits, hzero⟩ := hsome
    refine ⟨_, _, ⟨(List.take_append_drop _ _).symm, ?_, hdigits, hzero⟩, eq_of_ofWord? h⟩
    rw [List.length_drop]
    omega
  · rintro ⟨front, low, hends, rfl⟩
    have hlength : (Hex.clean text).length = front.length + 40 := by
      rw [hends.clean, List.length_append, hends.length]
    have hlow : (Hex.clean text).drop ((Hex.clean text).length - 40) = low := by
      rw [hlength, Nat.add_sub_cancel, hends.clean, List.drop_left]
    have hsome : ¬ Vacant text := by
      simp only [Vacant, hlow, hends.digits, hends.nonzero]
      simp [hlength]
    cases hword : ofWord? text with
    | none => exact absurd (ofWord?_eq_none_iff.1 hword) hsome
    | some address => rw [eq_of_ofWord? hword, hlow]

/-- An address is taken from a text that is no word exactly when all characters that are no digits stand
in front of the last forty. -/
theorem taken_from_no_word_iff : (∃ address, ofWord? text = some address) ∧ ¬ IsWord text ↔
    ∃ front low, EndsIn text front low ∧ front.all Hex.isDigit = false := by
  have hword : ∀ {front low}, EndsIn text front low →
      (IsWord text ↔ front.all Hex.isDigit = true) := by
    intro front low h
    simp [IsWord, h.clean, h.length, h.digits]
  constructor
  · rintro ⟨⟨address, h⟩, hno⟩
    obtain ⟨front, low, hends, -⟩ := ofWord?_eq_some_iff.1 h
    exact ⟨front, low, hends, Bool.eq_false_iff.2 fun hfront => hno ((hword hends).2 hfront)⟩
  · rintro ⟨front, low, hends, hfront⟩
    refine ⟨⟨_, ofWord?_eq_some_iff.2 ⟨front, low, hends, rfl⟩⟩, fun h => ?_⟩
    rw [(hword hends).1 h] at hfront
    cases hfront

end Address

variable {α : Type}

def Line.said (l : Line α) (logs : Array LogRecord) : Line α :=
  { l with journal := { l.journal with logs := logs } }

namespace Inquiry

variable {β : Type} [Seconds α] {out : Outside α} {l l' : Line α}

theorem go_run_ask {request : Request} {answer : Json}
    (h : (Line.ask out request).go l = (.ok answer, l')) (next : Json → Inquiry β) :
    ((Inquiry.ask request next).run out).go l = ((next answer).run out).go l' := by
  rw [run, Act.go_bind, h]

/-- Reading an answer does nothing to the line. -/
theorem state_run_reading (out : Outside α) (request : Request) (read : Json → Except Failure β)
    (l : Line α) :
    (((reading request read).run out).go l).2 = ((Line.ask out request).go l).2 := by
  rw [reading, run, Act.go_bind]
  rcases (Line.ask out request).go l with ⟨f | answer, l'⟩ <;> rfl

end Inquiry

namespace Resolution

theorem go_report (chain : Option Int) (m : Match) (address : String)
    (ended : Except Failure (List String)) (l : Line α) :
    ∃ r logs, (report chain m address ended).go l = (r, l.said logs) ∧
      ∀ found, ended = .ok found → r = .ok (resolved? m found) := by
  rcases ended with f | _ | ⟨a, rest⟩
  · dsimp only [report]
    split
    · exact ⟨_, _, rfl, nofun⟩
    · exact ⟨_, l.journal.logs, rfl, nofun⟩
  · refine ⟨.ok none, _, rfl, ?_⟩
    rintro _ ⟨⟩
    rfl
  · refine ⟨.ok (some _), l.journal.logs, rfl, ?_⟩
    rintro _ ⟨⟩
    rfl

variable [Seconds α] {out : Outside α} {m : Match} {address text : String} {l l' : Line α}

/-- A resolution does what finding the addresses does, and writes messages. -/
theorem go_resolve (out : Outside α) (chain : Option Int) (m : Match) (address : String) (l : Line α) :
    ∃ r logs, (resolve out chain m address).go l = (r, ((addresses out m address).go l).2.said logs) ∧
      ∀ found, ((addresses out m address).go l).1 = .ok found → r = .ok (resolved? m found) := by
  rw [resolve_eq_report, run_inquiry, Act.go_bind, Act.go_outcome]
  exact go_report chain m address _ _

theorem go_resolve_of_found {found : List String}
    (hfound : (addresses out m address).go l = (.ok found, l')) (chain : Option Int) :
    ∃ logs, (resolve out chain m address).go l = (.ok (resolved? m found), l'.said logs) := by
  obtain ⟨r, logs, hgo, hr⟩ := go_resolve out chain m address l
  rw [hfound] at hgo hr
  obtain rfl := hr found rfl
  exact ⟨logs, hgo⟩

/-- The slot that is read for a match; a wallet may keep its master copy under its own address. -/
def keyOf (address slot : String) : String :=
  if slot == Catalog.ownAddressSlot then Address.slot address else slot

theorem inquiry_of_slot (hm : (Catalog.row m.pattern).method = .storageSlot) {slot : String}
    (hslot : m.slot = some slot) (address : String) : inquiry m address =
      .ask (.slotOf address (keyOf address slot)) fun answer =>
        (Inquiry.done (addressOfSlot answer)).map Option.toList := by
  unfold inquiry slotInquiry
  dsimp only
  rw [hm, hslot]
  rfl

theorem inquiry_of_beacon (hm : m.pattern = .eip1967Beacon) {slot : String}
    (hslot : m.slot = some slot) (address : String) : inquiry m address =
      .ask (.slotOf address slot) fun answer => ((Inquiry.done (addressOfSlot answer)).bind
        (behindBeacon (some Catalog.implementationSelector))).map Option.toList := by
  have hmethod : (Catalog.row m.pattern).method = .beacon := by rw [hm]; rfl
  have haccessor : (Catalog.row m.pattern).accessor = some Catalog.implementationSelector := by
    rw [hm]; rfl
  unfold inquiry beaconInquiry
  dsimp only
  rw [hmethod, haccessor, hslot]
  rfl

theorem go_resolve_of_slot (hm : (Catalog.row m.pattern).method = .storageSlot) {slot : String}
    (hslot : m.slot = some slot)
    (hasked : (Line.ask out (.slotOf address (keyOf address slot))).go l = (.ok (.str text), l'))
    (chain : Option Int) : ∃ logs, (resolve out chain m address).go l =
      (.ok (resolved? m (Address.ofWord? text).toList), l'.said logs) := by
  have hfound : (addresses out m address).go l = (.ok (Address.ofWord? text).toList, l') := by
    rw [← run_inquiry, inquiry_of_slot hm hslot, Inquiry.go_run_ask hasked]
    rfl
  exact go_resolve_of_found hfound chain

/-- Without a beacon in its slot a proxy is resolved to nothing, and nothing more is asked. -/
theorem go_resolve_of_no_beacon (hm : m.pattern = .eip1967Beacon) {slot : String}
    (hslot : m.slot = some slot)
    (hasked : (Line.ask out (.slotOf address slot)).go l = (.ok (.str text), l'))
    (hnone : Address.ofWord? text = none) (chain : Option Int) :
    ∃ logs, (resolve out chain m address).go l = (.ok none, l'.said logs) := by
  have hread : addressOfSlot (.str text) = .ok none := congrArg Except.ok hnone
  have hfound : (addresses out m address).go l = (.ok [], l') := by
    rw [← run_inquiry, inquiry_of_beacon hm hslot, Inquiry.go_run_ask hasked, hread]
    rfl
  exact go_resolve_of_found hfound chain

/-- What is taken from the slot of a beacon is asked, and nothing else. -/
theorem go_resolve_of_beacon (hm : m.pattern = .eip1967Beacon) {slot : String}
    (hslot : m.slot = some slot)
    (hasked : (Line.ask out (.slotOf address slot)).go l = (.ok (.str text), l')) {beacon : String}
    (hsome : Address.ofWord? text = some beacon) (chain : Option Int) :
    ∃ r logs, (resolve out chain m address).go l =
      (r, ((Line.ask out (.callOf beacon (.str Catalog.implementationSelector))).go l').2.said logs) := by
  have hread : addressOfSlot (.str text) = .ok (some beacon) := congrArg Except.ok hsome
  have hfound : ((addresses out m address).go l).2 =
      ((Line.ask out (.callOf beacon (.str Catalog.implementationSelector))).go l').2 := by
    rw [← run_inquiry, inquiry_of_beacon hm hslot, Inquiry.go_run_ask hasked, hread]
    exact Inquiry.state_run_reading out _ (fun answer => (addressOfAnswer answer).map Option.toList) l'
  obtain ⟨r, logs, hgo, -⟩ := go_resolve out chain m address l
  exact ⟨r, logs, by rw [hgo, hfound]⟩

/-- An address is taken from the answer to a slot exactly when the answer ends in forty digits that are not
all zero, and from an answer that is no word exactly when, besides, a character in front of them is no
digit. A match of a slot is resolved to this address or to nothing; in the slot of a beacon it is the
address that is asked next, and without one nothing is asked any more. -/
theorem taken_from_last_forty (text : String) :
    (∀ taken, Address.ofWord? text = some taken ↔ ∃ front low, Address.EndsIn text front low ∧
      taken = String.ofList ('0' :: 'x' :: low.map Char.toLower)) ∧
    ((∃ taken, Address.ofWord? text = some taken) ∧ ¬ Address.IsWord text ↔
      ∃ front low, Address.EndsIn text front low ∧ front.all Hex.isDigit = false) ∧
    ∀ (out : Outside α) (chain : Option Int) (m : Match) (slot address : String) (l l' : Line α),
      m.slot = some slot →
      ((Catalog.row m.pattern).method = .storageSlot →
        (Line.ask out (.slotOf address (keyOf address slot))).go l = (.ok (.str text), l') →
        ∃ logs, (resolve out chain m address).go l =
          (.ok (resolved? m (Address.ofWord? text).toList), l'.said logs)) ∧
      (m.pattern = .eip1967Beacon →
        (Line.ask out (.slotOf address slot)).go l = (.ok (.str text), l') →
        (Address.ofWord? text = none →
          ∃ logs, (resolve out chain m address).go l = (.ok none, l'.said logs)) ∧
        ∀ beacon, Address.ofWord? text = some beacon →
          ∃ r logs, (resolve out chain m address).go l = (r, ((Line.ask out
            (.callOf beacon (.str Catalog.implementationSelector))).go l').2.said logs)) := by
  refine ⟨fun taken => Address.ofWord?_eq_some_iff, Address.taken_from_no_word_iff, ?_⟩
  intro out chain m slot address l l' hslot
  refine ⟨fun hm hasked => go_resolve_of_slot hm hslot hasked chain, fun hm hasked => ⟨?_, ?_⟩⟩
  · exact fun hnone => go_resolve_of_no_beacon hm hslot hasked hnone chain
  · exact fun beacon hsome => go_resolve_of_beacon hm hslot hasked hsome chain

/-- An address behind letters that are no digits is resolved, and asked when it is in the slot of a
beacon; an address with such a letter in it is not. -/
theorem taken_from_last_forty_of_no_word :
    let masked := String.ofList ('0' :: 'x' :: (List.replicate 24 'z' ++ List.replicate 40 'A'))
    let broken := String.ofList ('0' :: 'x' :: (List.replicate 39 'A' ++ ['z']))
    let taken := String.ofList ('0' :: 'x' :: List.replicate 40 'a')
    let slot : Match := { pattern := .eip1967, slot := some Catalog.eip1967Slot }
    let beacon : Match := { pattern := .eip1967Beacon, slot := some Catalog.beaconSlot }
    let l : Line Rat := ⟨⟨.list [.str "http://rpc"], 3, 30, 0, 0, 0, .none⟩, { clock := 0 }⟩
    let nodes (text : String) : Outside Rat :=
      .replying (.http 200 (.document (.obj [("result", .str text)])))
    let told (text slot : String) : Line Rat := ((Line.ask (nodes text) (.slotOf "0x1" slot)).go l).2
    ¬ Address.IsWord masked ∧ Address.ofWord? masked = some taken ∧
      (∃ logs, (resolve (nodes masked) (some 1) slot "0x1").go l =
        (.ok (some ⟨.eip1967, .storageSlot, [taken]⟩), (told masked Catalog.eip1967Slot).said logs)) ∧
      (∃ r logs, (resolve (nodes masked) (some 1) beacon "0x1").go l = (r, ((Line.ask (nodes masked)
        (.callOf taken (.str Catalog.implementationSelector))).go
          (told masked Catalog.beaconSlot)).2.said logs)) ∧
      ∃ logs, (resolve (nodes broken) (some 1) beacon "0x1").go l =
        (.ok none, (told broken Catalog.beaconSlot).said logs) := by
  intro masked broken taken slot beacon l nodes told
  have hasked : ∀ text slot, (Line.ask (nodes text) (.slotOf "0x1" slot)).go l =
      (.ok (.str text), told text slot) := fun text slot =>
    Prod.ext (Line.go_ask_replying Json.noConfusion rfl (List.cons_ne_nil _ _) (by decide) _) rfl
  obtain ⟨htaken, hmasked, hgo⟩ := @taken_from_last_forty Rat _ masked
  have hends : Address.EndsIn masked (List.replicate 24 'z') (List.replicate 40 'A') :=
    ⟨by decide +kernel, by decide, by decide, by decide⟩
  obtain ⟨-, hword⟩ := hmasked.2 ⟨_, _, hends, by decide⟩
  have hsome : Address.ofWord? masked = some taken :=
    (htaken taken).2 ⟨_, _, hends, by decide +kernel⟩
  have hnone : Address.ofWord? broken = none := by decide +kernel
  refine ⟨hword, hsome, ?_, ?_, ?_⟩
  · obtain ⟨hslot, -⟩ := hgo (nodes masked) (some 1) slot _ "0x1" l _ rfl
    obtain ⟨logs, h⟩ := hslot rfl (hasked masked _)
    rw [hsome] at h
    exact ⟨logs, h⟩
  · obtain ⟨-, hbeacon⟩ := hgo (nodes masked) (some 1) beacon _ "0x1" l _ rfl
    obtain ⟨r, logs, h⟩ := (hbeacon rfl (hasked masked _)).2 taken hsome
    exact ⟨r, logs, h⟩
  · obtain ⟨-, -, hgo⟩ := @taken_from_last_forty Rat _ broken
    obtain ⟨-, hbeacon⟩ := hgo (nodes broken) (some 1) beacon _ "0x1" l _ rfl
    obtain ⟨logs, h⟩ := (hbeacon rfl (hasked broken _)).1 hnone
    exact ⟨logs, h⟩

end Resolution

end ProxyCensus
