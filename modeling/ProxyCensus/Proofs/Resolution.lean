import Mathlib.Data.List.Dedup
import ProxyCensus.Proofs.Address
import ProxyCensus.Proofs.Rpc.Steady
import ProxyCensus.Resolution

/-!
# What a resolution returns

Main statements: the addresses of a resolved pattern are distinct normal forms, none of them zero,
and only a diamond has more than one, whatever the nodes answer; and on a client whose pauses all have
a number a resolution has no failures of its own.
-/

namespace ProxyCensus

namespace Evm.Abi

theorem length_of_word {data w rest : List UInt8} (h : word data = .ok (w, rest)) :
    w.length = 32 := by
  unfold word at h
  dsimp only at h
  split at h
  · rename_i hw
    cases h
    simpa using hw
  · cases h

theorem length_of_addressOfWord {w bytes : List UInt8} (h : addressOfWord w = .ok bytes)
    (hw : w.length = 32) : bytes.length = 20 := by
  unfold addressOfWord at h
  dsimp only at h
  split at h
  · obtain rfl := Except.ok.inj h
    rw [List.length_drop, hw]
  · cases h

theorem length_of_address {data bytes : List UInt8} (h : address data = .ok bytes) :
    bytes.length = 20 := by
  obtain ⟨parts, hw, h⟩ := bind_eq_ok_iff.1 h
  exact length_of_addressOfWord h (length_of_word hw)

theorem length_of_addressesFrom {n : Nat} :
    ∀ {data : List UInt8} {found : List (List UInt8)}, addressesFrom n data = .ok found →
      ∀ bytes ∈ found, bytes.length = 20 := by
  induction n with
  | zero =>
    intro data found h bytes hbytes
    obtain rfl := Except.ok.inj h
    cases hbytes
  | succ n ih =>
    intro data found h
    obtain ⟨parts, hw, h⟩ := bind_eq_ok_iff.1 h
    obtain ⟨first, hfirst, h⟩ := bind_eq_ok_iff.1 h
    obtain ⟨others, hothers, h⟩ := bind_eq_ok_iff.1 h
    obtain rfl := Except.ok.inj h
    intro bytes hbytes
    rcases List.mem_cons.1 hbytes with rfl | hbytes
    · exact length_of_addressOfWord hfirst (length_of_word hw)
    · exact ih hothers bytes hbytes

theorem length_of_addresses {data : List UInt8} {found : List (List UInt8)}
    (h : addresses data = .ok found) : ∀ bytes ∈ found, bytes.length = 20 := by
  obtain ⟨parts, -, h⟩ := bind_eq_ok_iff.1 h
  dsimp only at h
  split at h
  · cases h
  · obtain ⟨parts', -, h⟩ := bind_eq_ok_iff.1 h
    exact length_of_addressesFrom h

end Evm.Abi

namespace Resolution

variable {α : Type}

/-- An address that a resolution may return. -/
def Genuine (address : String) : Prop :=
  Address.IsNormal address ∧ address ≠ Address.zero

theorem genuine_of_nonzero? {address : String} (h : Address.IsNormal address) :
    ∀ a ∈ nonzero? address, Genuine a := by
  intro a ha
  unfold nonzero? at ha
  split at ha
  · cases ha
  · rename_i hne
    obtain rfl := Option.some.inj ha
    exact ⟨h, by simpa using hne⟩

theorem genuine_fromCode (m : Match) : ∀ a ∈ fromCode m, Genuine a := by
  intro a ha
  obtain ⟨address, haddress, ha⟩ := Option.bind_eq_some_iff.1 ha
  obtain ⟨s, -, hs⟩ := Option.bind_eq_some_iff.1 haddress
  exact genuine_of_nonzero? (Address.isNormal_of_normalize? hs) a ha

theorem genuine_of_slot {answer : Json} {found : Option String}
    (h : addressOfSlot answer = .ok found) : ∀ a ∈ found, Genuine a := by
  obtain ⟨text, -, h⟩ := bind_eq_ok_iff.1 h
  obtain rfl := Except.ok.inj h
  exact fun a ha => Address.isNormal_of_ofWord? ha

theorem exists_of_answerBytes_bind {β : Type} {text : String}
    {read : List UInt8 → Except String β} {b : β} (h : (answerBytes text).bind read = .ok b) :
    ∃ bytes, read bytes = .ok b := by
  obtain ⟨bytes, -, h⟩ := bind_eq_ok_iff.1 h
  exact ⟨bytes, h⟩

theorem genuine_of_answer {answer : Json} {found : Option String}
    (h : addressOfAnswer answer = .ok found) : ∀ a ∈ found, Genuine a := by
  obtain ⟨text, -, h⟩ := bind_eq_ok_iff.1 h
  dsimp only at h
  split at h
  · split at h <;> cases h
  · split at h
    · rename_i bytes hbytes
      obtain ⟨data, hdata⟩ := exists_of_answerBytes_bind hbytes
      obtain rfl := Except.ok.inj h
      exact genuine_of_nonzero? (Address.isNormal_ofBytes (Evm.Abi.length_of_address hdata))
    · cases h

/-- Induction along what is left of a list without the repetitions of its first element. -/
theorem eraseDups_induction {β : Type} [BEq β] {P : List β → Prop} (nil : P [])
    (cons : ∀ a rest, P (rest.filter fun b => !b == a) → P (a :: rest)) (l : List β) : P l := by
  induction hn : l.length using Nat.strongRecOn generalizing l with
  | ind n ih =>
    cases l with
    | nil => exact nil
    | cons a rest =>
      refine cons a rest (ih _ ?_ _ rfl)
      rw [← hn, List.length_cons]
      exact Nat.lt_succ_of_le (List.length_filter_le _ _)

theorem nodup_eraseDups (l : List String) : l.eraseDups.Nodup := by
  induction l using eraseDups_induction with
  | nil => exact List.nodup_nil
  | cons a rest ih =>
    rw [List.eraseDups_cons, List.nodup_cons]
    refine ⟨?_, ih⟩
    rw [List.mem_eraseDups, List.mem_filter]
    rintro ⟨-, h⟩
    simp at h

theorem distinctNonzero_genuine {addresses : List String}
    (h : ∀ a ∈ addresses, Address.IsNormal a) :
    (distinctNonzero addresses).Nodup ∧ ∀ a ∈ distinctNonzero addresses, Genuine a := by
  refine ⟨nodup_eraseDups _, fun a ha => ?_⟩
  rw [distinctNonzero, List.mem_eraseDups, List.mem_filter] at ha
  exact ⟨h a ha.1, by simpa using ha.2⟩

theorem genuine_of_facets {answer : Json} {found : List String}
    (h : facetsOfAnswer answer = .ok found) : found.Nodup ∧ ∀ a ∈ found, Genuine a := by
  obtain ⟨text, -, h⟩ := bind_eq_ok_iff.1 h
  split at h
  · rename_i facets hfacets
    obtain ⟨data, hdata⟩ := exists_of_answerBytes_bind hfacets
    obtain rfl := Except.ok.inj h
    refine distinctNonzero_genuine fun a ha => ?_
    obtain ⟨bytes, hbytes, rfl⟩ := List.mem_map.1 ha
    exact Address.isNormal_ofBytes (Evm.Abi.length_of_addresses hdata bytes hbytes)
  · cases h

/-- What a resolution finds for a pattern: distinct addresses, and one at most unless it is a
diamond. -/
structure Finds (p : Pattern) (found : List String) : Prop where
  nodup : found.Nodup
  genuine : ∀ a ∈ found, Genuine a
  single : p ≠ .diamond → found.length ≤ 1

theorem finds_toList {p : Pattern} {found : Option String} (h : ∀ a ∈ found, Genuine a) :
    Finds p found.toList := by
  cases found with
  | none => exact ⟨List.nodup_nil, by simp, fun _ => Nat.zero_le 1⟩
  | some a => exact ⟨List.nodup_singleton a, by simpa using h, fun _ => Nat.le_refl 1⟩

theorem method_row_eq_facetEnumeration {p : Pattern}
    (h : (Catalog.row p).method = .facetEnumeration) : p = .diamond := by
  revert h
  cases p <;> decide

variable [Seconds α] (out : Outside α)

theorem fromSlot_yields (m : Match) (address : String) :
    (fromSlot out m address).Yields fun found => ∀ a ∈ found, Genuine a := by
  unfold fromSlot
  cases m.slot with
  | none => exact .throw _
  | some slot => exact .after fun answer => .lift fun _ => genuine_of_slot

theorem fromAccessor_yields (address : String) (selector : Option String) :
    (fromAccessor out address selector).Yields fun found => ∀ a ∈ found, Genuine a := by
  cases selector with
  | none => exact .throw _
  | some selector => exact .after fun answer => .lift fun _ => genuine_of_answer

theorem fromBeacon_yields (m : Match) (address : String) (accessor : Option String) :
    (fromBeacon out m address accessor).Yields fun found => ∀ a ∈ found, Genuine a := by
  refine .after fun beacon => ?_
  cases beacon with
  | none => exact .pure (by simp)
  | some beacon => exact fromAccessor_yields out beacon accessor

theorem fromFacets_yields (address : String) (selector : Option String) :
    (fromFacets out address selector).Yields fun found =>
      found.Nodup ∧ ∀ a ∈ found, Genuine a := by
  cases selector with
  | none => exact .throw _
  | some selector => exact .after fun answer => .lift fun _ => genuine_of_facets

theorem addresses_yields (m : Match) (address : String) :
    (addresses out m address).Yields (Finds m.pattern) := by
  have hlist : ∀ {x : Act (Line α) (Option String)}, (x.Yields fun found => ∀ a ∈ found, Genuine a) →
      Act.Yields (do return (← x).toList : Act (Line α) (List String)) (Finds m.pattern) :=
    fun hx => hx.bind fun found hfound => .pure (finds_toList hfound)
  unfold addresses
  dsimp only
  cases hmethod : (Catalog.row m.pattern).method with
  | bytecode => exact .pure (finds_toList (genuine_fromCode m))
  | storageSlot => exact hlist (fromSlot_yields out m address)
  | accessorCall => exact hlist (fromAccessor_yields out address _)
  | beacon => exact hlist (fromBeacon_yields out m address _)
  | facetEnumeration =>
    intro l found hfound
    obtain ⟨hnodup, hgenuine⟩ := fromFacets_yields out address _ l found hfound
    exact ⟨hnodup, hgenuine, fun h => absurd (method_row_eq_facetEnumeration hmethod) h⟩

/-- A resolved pattern as a resolution returns it. -/
structure Shaped (m : Match) (r : Resolved) : Prop extends Finds m.pattern r.addresses where
  pattern : r.pattern = m.pattern
  method : r.method = (Catalog.row m.pattern).method
  found : r.addresses ≠ []

/-- Whatever the nodes answer, what a resolution returns has its shape. -/
theorem resolve_yields (chain : Option Int) (m : Match) (address : String) :
    (resolve out chain m address).Yields fun found => ∀ r ∈ found, Shaped m r := by
  refine (addresses_yields out m address).outcome.bind fun outcome hfound => ?_
  dsimp only
  split
  · exact .after fun _ => .pure (by simp)
  · rename_i found hne
    refine .pure fun r hr => ?_
    obtain rfl := Option.some.inj hr
    exact ⟨hfound found rfl, rfl, rfl, fun h => hne (h ▸ rfl)⟩
  · split
    · exact .after fun _ => .pure (by simp)
    · exact .throw _

theorem ask_fails (request : Request) :
    Line.FailsOnly out (isOwn · = true) (Line.ask out request) :=
  (Line.ask_fails out request).mono fun _ ⟨_, hf⟩ => hf ▸ rfl

/-- What is said of an answer that cannot be read begins with where the answer came from. -/
def Blames (source : String) (f : Failure) : Prop :=
  ∃ rest, f = .unresolvable (source ++ rest)

theorem Blames.isOwn {source : String} {f : Failure} (h : Blames source f) : isOwn f = true := by
  obtain ⟨rest, rfl⟩ := h
  rfl

theorem blames_of_textOf {source : String} {v : Json} {f : Failure} (h : textOf source v = .error f) :
    Blames source f := by
  cases v with
  | str s => cases h
  | _ =>
    obtain rfl := Except.error.inj h
    exact ⟨_, congrArg Failure.unresolvable (String.append_assoc ..)⟩

theorem blames_of_slot {answer : Json} {f : Failure} (h : addressOfSlot answer = .error f) :
    Blames "eth_getStorageAt" f := by
  rcases bind_eq_error_iff.1 h with h | ⟨text, -, h⟩
  · exact blames_of_textOf h
  · cases h

theorem blames_of_answer {answer : Json} {f : Failure} (h : addressOfAnswer answer = .error f) :
    Blames "Accessor" f := by
  rcases bind_eq_error_iff.1 h with h | ⟨text, -, h⟩
  · exact blames_of_textOf h
  · dsimp only at h
    split at h
    · split at h <;>
      · obtain rfl := Except.error.inj h
        exact ⟨" returned no data", rfl⟩
    · split at h
      · cases h
      · rename_i reason _
        obtain rfl := Except.error.inj h
        have hfront : "Accessor" ++ " returned undecodable data: " =
            "Accessor returned undecodable data: " := by decide
        exact ⟨" returned undecodable data: " ++ reason, by rw [← String.append_assoc, hfront]; rfl⟩

theorem blames_of_facets {answer : Json} {f : Failure} (h : facetsOfAnswer answer = .error f) :
    Blames "facetAddresses()" f := by
  rcases bind_eq_error_iff.1 h with h | ⟨text, -, h⟩
  · exact blames_of_textOf h
  · split at h
    · cases h
    · rename_i reason _
      obtain rfl := Except.error.inj h
      have hfront : "facetAddresses()" ++ " returned undecodable data: " =
          "facetAddresses() returned undecodable data: " := by decide
      exact ⟨" returned undecodable data: " ++ reason, by rw [← String.append_assoc, hfront]; rfl⟩

theorem fromSlot_fails (m : Match) (address : String) :
    Line.FailsOnly out (isOwn · = true) (fromSlot out m address) := by
  unfold fromSlot
  cases m.slot with
  | none => exact .throw rfl
  | some slot => exact (ask_fails out _).bind fun answer => .lift fun f h => (blames_of_slot h).isOwn

theorem fromAccessor_fails (address : String) (selector : Option String) :
    Line.FailsOnly out (isOwn · = true) (fromAccessor out address selector) := by
  cases selector with
  | none => exact .throw rfl
  | some selector => exact (ask_fails out _).bind fun answer => .lift fun f h => (blames_of_answer h).isOwn

theorem findBeacon_fails (m : Match) (address : String) :
    Line.FailsOnly out (isOwn · = true) (findBeacon out m address) := by
  unfold findBeacon
  cases m.slot with
  | none => exact (ask_fails out _).bind fun answer => .lift fun f h => (blames_of_answer h).isOwn
  | some slot => exact (ask_fails out _).bind fun answer => .lift fun f h => (blames_of_slot h).isOwn

theorem fromBeacon_fails (m : Match) (address : String) (accessor : Option String) :
    Line.FailsOnly out (isOwn · = true) (fromBeacon out m address accessor) := by
  refine (findBeacon_fails out m address).bind fun beacon => ?_
  cases beacon with
  | none => exact .pure _
  | some beacon => exact fromAccessor_fails out beacon accessor

theorem fromFacets_fails (address : String) (selector : Option String) :
    Line.FailsOnly out (isOwn · = true) (fromFacets out address selector) := by
  cases selector with
  | none => exact .throw rfl
  | some selector => exact (ask_fails out _).bind fun answer => .lift fun f h => (blames_of_facets h).isOwn

theorem addresses_fails (m : Match) (address : String) :
    Line.FailsOnly out (isOwn · = true) (addresses out m address) := by
  unfold addresses
  dsimp only
  cases (Catalog.row m.pattern).method with
  | bytecode => exact .pure _
  | storageSlot => exact (fromSlot_fails out m address).bind fun found => .pure _
  | accessorCall => exact (fromAccessor_fails out address _).bind fun found => .pure _
  | beacon => exact (fromBeacon_fails out m address _).bind fun found => .pure _
  | facetEnumeration => exact fromFacets_fails out address _

theorem log_fails {allowed : Failure → Prop} (level : Level) (message : String) :
    Line.FailsOnly out allowed (log level message : Act (Line α) Unit) :=
  .log

/-- On a steady client a resolution has no failures of its own. -/
theorem resolve_fails (chain : Option Int) (m : Match) (address : String) :
    Line.FailsOnly out (fun _ => False) (resolve out chain m address) := by
  refine (addresses_fails out m address).handle (fun reason h => by cases h) (fun found => ?_)
    (fun f hown => ?_) fun f hother => ?_
  · cases found with
    | nil => exact (log_fails out _ _).bind fun _ => .pure _
    | cons a rest => exact .pure _
  · dsimp only
    rw [if_pos hown]
    exact (log_fails out _ _).bind fun _ => .pure _
  · dsimp only
    rw [if_neg hother]

end Resolution

end ProxyCensus
