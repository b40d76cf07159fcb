import ProxyCensus.Proofs.Job.ResolveNodes
import ProxyCensus.Proofs.Resolution.Inquiry

/-!
# The requests of a resolution

Detection decides which of slot and selector a match carries, resolution decides from them what to
ask. Main statement: for every match that is detected in code the requests are exactly those of its
pattern, whatever the client makes of them; in particular a slot or a selector is never missing.
-/

namespace ProxyCensus

open Evm (Instruction)
open Catalog (row)

/-- A marker and so many digits in lower case. -/
def Hex.Spelled (width : Nat) (s : String) : Prop :=
  ∃ digits : List Char, s = String.ofList ('0' :: 'x' :: digits) ∧ digits.length = width ∧
    ∀ c ∈ digits, c ∈ "0123456789abcdef".toList

theorem Hex.Spelled.of_toList {width : Nat} {s : String}
    (h : s.toList.take 2 = ['0', 'x'] ∧ (s.toList.drop 2).length = width ∧
      (s.toList.drop 2).all (· ∈ "0123456789abcdef".toList) = true) : Hex.Spelled width s := by
  obtain ⟨hmark, hlength, hdigits⟩ := h
  refine ⟨s.toList.drop 2, ?_, hlength, by simpa using hdigits⟩
  have hsplit : s.toList = '0' :: 'x' :: s.toList.drop 2 := by
    conv_lhs => rw [← List.take_append_drop 2 s.toList, hmark]
    rfl
  rw [← hsplit, String.ofList_toList]

theorem Address.slot_ofList {digits : List Char} (hlength : digits.length = 40)
    (hdigits : ∀ c ∈ digits, c ∈ "0123456789abcdef".toList) :
    Address.slot (String.ofList ('0' :: 'x' :: digits)) =
      String.ofList ('0' :: 'x' :: List.replicate 24 '0' ++ digits) := by
  have hplain : ∀ c ∈ "0123456789abcdef".toList,
      decide (c.toNat < 128 ∧ c.toLower = c ∧ Text.isBlank c = false) = true :=
    List.all_eq_true.1 (by decide)
  simp only [decide_eq_true_eq] at hplain
  have hclean : Hex.clean (String.ofList ('0' :: 'x' :: digits)) = digits := by
    rw [Hex.clean, String.toList_ofList, Text.trimBy_eq_self]
    · rfl
    · intro c hc
      obtain rfl := Option.some.inj hc
      rfl
    · intro c hc
      rcases List.mem_cons.1 (List.mem_of_mem_getLast? hc) with rfl | hc
      · rfl
      · rcases List.mem_cons.1 hc with rfl | hc
        · rfl
        · exact (hplain c (hdigits c hc)).2.2
  have hlower : Text.lowerFrom [] digits = digits := by
    rw [Text.lowerFrom_of_ascii [] fun c hc => (hplain c (hdigits c hc)).1]
    exact (List.map_congr_left fun c hc => (hplain c (hdigits c hc)).2.1).trans (List.map_id _)
  rw [Address.slot, hclean, hlower, hlength]

theorem Definition.FirstMark.pushedBy {d : Definition} {is : List Instruction} {i : Instruction}
    (h : d.FirstMark is i) (hsequences : d.sequences = []) : d.PushedBy i := by
  obtain ⟨n, hn, hmarks, -⟩ := h
  rw [List.drop_eq_getElem?_toList_append, hn] at hmarks
  exact (Definition.marks_cons_of_sequences_nil hsequences i _).1 hmarks

namespace Request

inductive Spelled : Request → Prop where
  | slot {slot : String} (address : String) (h : Hex.Spelled 64 slot) : Spelled (slotOf address slot)
  | selector {selector : String} (target : String) (h : Hex.Spelled 8 selector) :
    Spelled (callOf target (.str selector))

end Request

namespace Inquiry

variable {β γ : Type} (client : List Request → Except Failure Json) (asked : List Request)

@[simp] theorem requests_reading (request : Request) (read : Json → Except Failure β) :
    (reading request read).requests client asked = [request] := by
  simp only [reading, requests]
  cases client (asked ++ [request]) <;> rfl

/-- After one question another inquiry follows if the answer was read. -/
theorem requests_reading_bind (request : Request) (read : Json → Except Failure β)
    (f : β → Inquiry γ) :
    ((reading request read).bind f).requests client asked =
      request :: match client (asked ++ [request]) >>= read with
        | .ok b => (f b).requests client (asked ++ [request])
        | .error _ => [] := by
  simp only [reading, bind, requests]
  cases client (asked ++ [request]) with
  | error e => rfl
  | ok answer =>
    change _ :: requests client _ (bind (.done (read answer)) f) = _ :: match read answer with
      | .ok b => _
      | .error _ => _
    cases read answer <;> rfl

end Inquiry

namespace Resolution

/-- The requests about a beacon: `first` finds it, and it is called if that has named a contract. -/
inductive BeaconRequests (client : List Request → Except Failure Json) (first : Request)
    (read : Json → Except Failure (Option String)) : List Request → Prop where
  | found {beacon : String} (h : (client [first] >>= read) = .ok (some beacon))
    (hne : beacon ≠ Address.zero) :
    BeaconRequests client first read
      [first, .callOf beacon (.str Catalog.implementationSelector)]
  | missed (h : ∀ beacon, (client [first] >>= read) ≠ .ok (some beacon)) :
    BeaconRequests client first read [first]

/-- What is asked about a pattern that was found in the instructions `is` of the contract whose
address has the given digits. -/
def Asked (is : List Instruction) (digits : List Char) (client : List Request → Except Failure Json)
    (requests : List Request) (p : Pattern) : Prop :=
  let address := String.ofList ('0' :: 'x' :: digits)
  match p with
  | .fixed => requests = []
  | .eip1967 => requests = [.slotOf address Catalog.eip1967Slot]
  | .zeppelinOS => requests = [.slotOf address Catalog.zeppelinOSSlot]
  | .proxiable => requests = [.slotOf address Catalog.proxiableSlot]
  | .gnosisSafe => requests = [.slotOf address Catalog.zeroSlot]
  | .sequenceWallet =>
    requests = [.slotOf address (String.ofList ('0' :: 'x' :: List.replicate 24 '0' ++ digits))]
  | .legacyUpgradeable => requests = [.callOf address (.str Catalog.implementationSelector)]
  | .eip1967Beacon => ∃ i, (row .eip1967Beacon).FirstMark is i ∧
    (i.opcode = Evm.push32 ∧ i.pushed = Catalog.beaconSlot ∧
        BeaconRequests client (.slotOf address Catalog.beaconSlot) addressOfSlot requests ∨
      i.opcode = Evm.push4 ∧ i.pushed = Catalog.beaconSelector ∧
        BeaconRequests client (.callOf address (.str Catalog.beaconSelector)) addressOfAnswer
          requests)
  | .diamond => requests = [.callOf address (.str Catalog.facetAddressesSelector)]

theorem spelled_beaconRequests {client : List Request → Except Failure Json} {first : Request}
    {read : Json → Except Failure (Option String)} {requests : List Request}
    (h : BeaconRequests client first read requests) (hfirst : first.Spelled) :
    ∀ q ∈ requests, q.Spelled := by
  have hselector : Hex.Spelled 8 Catalog.implementationSelector :=
    .of_toList (by decide +kernel)
  cases h with
  | found hb hne =>
    intro q hq
    rcases List.mem_cons.1 hq with rfl | hq
    · exact hfirst
    · exact List.mem_singleton.1 hq ▸ .selector _ hselector
  | missed hb =>
    intro q hq
    exact List.mem_singleton.1 hq ▸ hfirst

/-- What is asked about a pattern is spelled in full. -/
theorem Asked.spelled {is : List Instruction} {digits : List Char}
    {client : List Request → Except Failure Json} {requests : List Request} {p : Pattern}
    (h : Asked is digits client requests p) (hlength : digits.length = 40)
    (hdigits : ∀ c ∈ digits, c ∈ "0123456789abcdef".toList) : ∀ q ∈ requests, q.Spelled := by
  have hslot : ∀ {slot : String}, Hex.Spelled 64 slot → ∀ address,
      ∀ q ∈ [Request.slotOf address slot], q.Spelled :=
    fun hslot address q hq => List.mem_singleton.1 hq ▸ .slot address hslot
  have hcall : ∀ {selector : String}, Hex.Spelled 8 selector → ∀ target,
      ∀ q ∈ [Request.callOf target (.str selector)], q.Spelled :=
    fun hselector target q hq => List.mem_singleton.1 hq ▸ .selector target hselector
  cases p with
  | fixed =>
    obtain rfl := h
    simp
  | eip1967 => exact h ▸ hslot (.of_toList (by decide +kernel)) _
  | zeppelinOS => exact h ▸ hslot (.of_toList (by decide +kernel)) _
  | proxiable => exact h ▸ hslot (.of_toList (by decide +kernel)) _
  | gnosisSafe => exact h ▸ hslot (.of_toList (by decide +kernel)) _
  | sequenceWallet =>
    refine h ▸ hslot ⟨_, rfl, by simp [hlength], fun c hc => ?_⟩ _
    rcases List.mem_append.1 hc with hc | hc
    · rw [List.eq_of_mem_replicate hc]
      decide
    · exact hdigits c hc
  | legacyUpgradeable => exact h ▸ hcall (.of_toList (by decide +kernel)) _
  | eip1967Beacon =>
    obtain ⟨i, -, ⟨-, -, h⟩ | ⟨-, -, h⟩⟩ := h
    · exact spelled_beaconRequests h (.slot _ (.of_toList (by decide +kernel)))
    · exact spelled_beaconRequests h (.selector _ (.of_toList (by decide +kernel)))
  | diamond => exact h ▸ hcall (.of_toList (by decide +kernel)) _

/-- Two hops: what is asked of a beacon is decided by what the first answer was read as. -/
theorem requests_behindBeacon {client : List Request → Except Failure Json} {first : Request}
    {read : Json → Except Failure (Option String)}
    (hread : ∀ {answer found}, read answer = .ok found → ∀ a ∈ found, Genuine a) :
    BeaconRequests client first read
      ((((Inquiry.reading first read).bind
        (behindBeacon (row .eip1967Beacon).accessor)).map Option.toList).requests client []) := by
  rw [Inquiry.requests_map, Inquiry.requests_reading_bind, List.nil_append]
  cases hfound : client [first] >>= read with
  | error e => exact .missed fun beacon h => by rw [hfound] at h; cases h
  | ok found =>
    cases found with
    | none => exact .missed fun beacon h => by rw [hfound] at h; cases h
    | some beacon =>
      obtain ⟨answer, -, hanswer⟩ := bind_eq_ok_iff.1 hfound
      have hrequests : (behindBeacon (row .eip1967Beacon).accessor (some beacon)).requests client
          [first] = [.callOf beacon (.str Catalog.implementationSelector)] :=
        Inquiry.requests_reading client _ _ _
      dsimp only
      rw [hrequests]
      exact .found hfound (hread hanswer beacon rfl).2

theorem asked_of_entry {is : List Instruction} {digits : List Char} (hlength : digits.length = 40)
    (hdigits : ∀ c ∈ digits, c ∈ "0123456789abcdef".toList) {p : Pattern} (hp : p ≠ .fixed)
    {i : Instruction} (hfirst : (row p).FirstMark is i)
    (client : List Request → Except Failure Json) :
    Asked is digits client
      ((inquiry (Detection.entry p i) (String.ofList ('0' :: 'x' :: digits))).requests client []) p := by
  -- Except for a beacon and a wallet the match carries the slot or the selector that is asked for.
  have hreading : ∀ (request : Request) (read : Json → Except Failure (Option String)),
      (Inquiry.map Option.toList (.reading request read)).requests client [] = [request] :=
    fun request read => (Inquiry.requests_map ..).trans (Inquiry.requests_reading ..)
  cases p with
  | fixed => exact absurd rfl hp
  | eip1967 => exact hreading _ _
  | zeppelinOS => exact hreading _ _
  | proxiable => exact hreading _ _
  | gnosisSafe => exact hreading _ _
  | sequenceWallet =>
    rw [Asked, ← Address.slot_ofList hlength hdigits]
    exact hreading _ _
  | legacyUpgradeable => exact hreading _ _
  | eip1967Beacon =>
    refine ⟨i, hfirst, ?_⟩
    rcases hfirst.pushedBy rfl with ⟨hopcode, hpushed⟩ | ⟨hopcode, hpushed⟩
    · refine .inl ⟨hopcode, List.mem_singleton.1 hpushed, ?_⟩
      rw [Detection.entry, if_pos rfl, if_pos hopcode]
      exact requests_behindBeacon fun h => genuine_of_slot h
    · refine .inr ⟨hopcode, List.mem_singleton.1 hpushed, ?_⟩
      rw [Detection.entry, if_pos rfl, if_neg (hopcode ▸ by decide)]
      exact requests_behindBeacon fun h => genuine_of_answer h
  | diamond => exact Inquiry.requests_reading ..

/-- The first letters of what is said of an answer that cannot be read. -/
def openings : List Char := ['A', 'e', 'f']

/-- A failure to read an answer. -/
def Unreadable (f : Failure) : Prop :=
  ∃ reason, f = .unresolvable reason ∧ ∃ c ∈ openings, reason.toList.head? = some c

theorem head?_append {c : Char} {front : String} (h : front.toList.head? = some c)
    (rest : String) : (front ++ rest).toList.head? = some c := by
  rw [String.toList_append, List.head?_append, h]
  rfl

theorem Blames.unreadable {source : String} {f : Failure} (h : Blames source f) {c : Char}
    (hc : c ∈ openings) (hsource : source.toList.head? = some c) : Unreadable f := by
  obtain ⟨rest, rfl⟩ := h
  exact ⟨_, rfl, c, hc, head?_append hsource rest⟩

/-- The inquiry into a match that was detected fails of its own only for what it cannot read. -/
theorem unreadable_of_entry {p : Pattern} (hp : p ≠ .fixed) {i : Instruction} {address : String}
    {f : Failure} (h : (inquiry (Detection.entry p i) address).Raises f) : Unreadable f := by
  have hslot : ∀ {request}, (Inquiry.reading request addressOfSlot).Raises f → Unreadable f :=
    fun ⟨_, h⟩ => (blames_of_slot h).unreadable (by decide : 'e' ∈ openings) (by decide)
  have hanswer : ∀ {request}, (Inquiry.reading request addressOfAnswer).Raises f → Unreadable f :=
    fun ⟨_, h⟩ => (blames_of_answer h).unreadable (by decide : 'A' ∈ openings) (by decide)
  have hbeacon : ∀ {x : Inquiry (Option String)}, (x.Raises f → Unreadable f) →
      ((x.bind (behindBeacon (row .eip1967Beacon).accessor)).map Option.toList).Raises f →
      Unreadable f := by
    intro x hx h
    rcases Inquiry.raises_of_bind (Inquiry.raises_of_map h) with h | ⟨found, h⟩
    · exact hx h
    · cases found with
      | none => cases h
      | some beacon => exact hanswer h
  cases p with
  | fixed => exact absurd rfl hp
  | eip1967 => exact hslot (Inquiry.raises_of_map h)
  | zeppelinOS => exact hslot (Inquiry.raises_of_map h)
  | proxiable => exact hslot (Inquiry.raises_of_map h)
  | gnosisSafe => exact hslot (Inquiry.raises_of_map h)
  | sequenceWallet => exact hslot (Inquiry.raises_of_map h)
  | legacyUpgradeable => exact hanswer (Inquiry.raises_of_map h)
  | eip1967Beacon =>
    rw [Detection.entry, if_pos rfl] at h
    split at h
    · exact hbeacon hslot h
    · exact hbeacon hanswer h
  | diamond =>
    obtain ⟨answer, h⟩ := h
    exact (blames_of_facets h).unreadable (by decide : 'f' ∈ openings) (by decide)

theorem Unreadable.ne {reason front : String} (h : Unreadable (.unresolvable reason)) {c : Char}
    (hc : c ∉ openings) (hfront : front.toList.head? = some c) (rest : String) :
    reason ≠ front ++ rest := by
  obtain ⟨_, heq, d, hd, hhead⟩ := h
  obtain rfl := Failure.unresolvable.inj heq
  intro hreason
  rw [hreason, head?_append hfront] at hhead
  exact hc (Option.some.inj hhead ▸ hd)

def missing (target : String) : List String :=
  s!"No accessor selector to call on {target}" ::
    s!"No facet enumeration selector to call on {target}" ::
    Pattern.all.map fun p => s!"{p.name} match carries no storage slot"

theorem Unreadable.not_missing {reason : String} (h : Unreadable (.unresolvable reason))
    (target : String) : reason ∉ missing target := by
  intro hmem
  rcases List.mem_cons.1 hmem with hmem | hmem
  · exact h.ne (by decide : 'N' ∉ openings) (by decide) target hmem
  rcases List.mem_cons.1 hmem with hmem | hmem
  · exact h.ne (by decide : 'N' ∉ openings) (by decide) target hmem
  · obtain ⟨p, -, hp⟩ := List.mem_map.1 hmem
    have hname : ∃ c ∉ openings, p.name.toList.head? = some c := by
      cases p <;> exact ⟨_, by decide, rfl⟩
    obtain ⟨c, hc, hname⟩ := hname
    exact h.ne hc hname _ hp.symm

/-- For every match that is detected in code, a resolution at an address in normal form asks exactly
what its pattern says, whatever the client makes of the requests; every slot and selector that is
sent is spelled in full, and none is missing. -/
theorem requests_of_detected {text : String} {found : List Match}
    (hfound : Detection.inText Catalog.builtIn text = .ok found) {m : Match} (hm : m ∈ found)
    {digits : List Char} (hlength : digits.length = 40)
    (hdigits : ∀ c ∈ digits, c ∈ "0123456789abcdef".toList) :
    let address := String.ofList ('0' :: 'x' :: digits)
    ∃ code, Detection.codeBytes text = .ok code ∧
      (∀ {α : Type} [Seconds α] (out : Outside α) (chain : Option Int),
        resolve out chain m address =
          ((inquiry m address).run out).outcome >>= report chain m address) ∧
      (∀ client, Asked (Evm.sweep code) digits client
        ((inquiry m address).requests client []) m.pattern) ∧
      (∀ client, ∀ q ∈ (inquiry m address).requests client [], q.Spelled) ∧
      ∀ f, (inquiry m address).Raises f →
        ∃ reason, f = .unresolvable reason ∧ ∀ target, reason ∉ missing target := by
  intro address
  obtain ⟨code, hcode, hin⟩ := bind_eq_ok_iff.1 hfound
  have hshape := (Detection.mem_inCode_builtIn_iff hin m).1 hm
  have hasked : ∀ client, Asked (Evm.sweep code) digits client
      ((inquiry m address).requests client []) m.pattern := by
    intro client
    rcases hshape with ⟨target, -, rfl⟩ | ⟨hfixed, -, i, hfirst, heq⟩
    · rfl
    · rw [heq, Detection.pattern_entry]
      exact asked_of_entry hlength hdigits hfixed hfirst client
  refine ⟨code, hcode, fun out chain => resolve_eq_report out chain m address, hasked,
    fun client => (hasked client).spelled hlength hdigits, fun f hf => ?_⟩
  have hunreadable : Unreadable f := by
    rcases hshape with ⟨target, -, rfl⟩ | ⟨hfixed, -, i, hfirst, heq⟩
    · cases hf
    · rw [heq] at hf
      exact unreadable_of_entry hfixed hf
  obtain ⟨reason, rfl, hhead⟩ := hunreadable
  exact ⟨reason, rfl, Unreadable.not_missing ⟨reason, rfl, hhead⟩⟩

/-- In code that pushes the selector of the beacon before its slot, the beacon is called. -/
theorem requests_of_selector_before_slot :
    let text := "0x6359659e907fa3f0ad74e5423aebfd80d3ef4346578335a9a72aeaee59ff6cb3582b35133d50f4"
    let m : Match := { pattern := .eip1967Beacon, selector := some Catalog.beaconSelector }
    let client : List Request → Except Failure Json := fun _ =>
      .ok (.str (String.ofList ('0' :: 'x' :: List.replicate 24 '0' ++ List.replicate 40 'b')))
    let address := String.ofList ('0' :: 'x' :: List.replicate 40 'a')
    Detection.inText Catalog.builtIn text = .ok [m] ∧
      (∃ code, Detection.codeBytes text = .ok code ∧
        Asked (Evm.sweep code) (List.replicate 40 'a') client
          ((inquiry m address).requests client []) .eip1967Beacon) ∧
      ((inquiry m address).requests client []).length = 2 ∧
      ∀ q ∈ (inquiry m address).requests client [], q.Spelled := by
  intro text m client address
  have hfound : Detection.inText Catalog.builtIn text = .ok [m] :=
    eq_ok_of_toOption (by decide +kernel)
  have htwo : ((inquiry m address).requests client []).length = 2 := by decide +kernel
  have hdigits : ∀ c ∈ List.replicate 40 'a', c ∈ "0123456789abcdef".toList :=
    fun c hc => List.eq_of_mem_replicate hc ▸ by decide
  obtain ⟨code, hcode, -, hasked, hspelled, -⟩ := requests_of_detected hfound
    (List.mem_singleton_self m) List.length_replicate hdigits
  exact ⟨hfound, ⟨code, hcode, hasked client⟩, htwo, hspelled client⟩

end Resolution

end ProxyCensus
