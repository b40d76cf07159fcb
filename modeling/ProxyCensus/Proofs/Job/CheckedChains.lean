import Mathlib.Data.List.Pairwise
import ProxyCensus.Proofs.Analysis.Outcomes
import ProxyCensus.Proofs.Job.ResolveOrder
import ProxyCensus.Proofs.Job.ResolveSpellings
import ProxyCensus.Proofs.Resolution.Answers
import ProxyCensus.Proofs.Tally.Registers

/-!
# Checked chains

A resolution lists a chain as checked in the spelling in which its candidates are listed, and registers a
contract under the text of the number that this spells. Main statement: whatever comes in its way, the
chains of its registries are among those it has checked, and no two of these have one number, if every
chain with a node and a candidate is spelled as its number and no number is spelled in two ways; and if
not, there are nodes and a corpus with which a whole run ends otherwise.
-/

namespace ProxyCensus.Resolve

open ResolutionTally (Aligned Change Registered change)

variable {α : Type}

/-- An address is listed that a record can have. -/
def Usable (addresses : List String) : Prop :=
  ∃ address ∈ addresses, (Address.normalize? address).isSome = true

/-- A chain that has a node is spelled as its number if something usable is listed under it, and no number
is spelled in two ways. -/
structure Canonical (nodes : List (String × Json)) (listed : List (String × List String)) : Prop where
  spelled : ∀ e ∈ listed, ∀ n, numberOf? nodes e.1 = some n → Usable e.2 → e.1 = toString n
  apart : ∀ e ∈ listed, ∀ e' ∈ listed, ∀ n, numberOf? nodes e.1 = some n →
    numberOf? nodes e'.1 = some n → e.1 = e'.1

/-- A chain that is listed and has a node and a number. -/
def Served (nodes : List (String × Json)) (listed : List (String × List String)) (chain : String) : Prop :=
  (∃ e ∈ listed, e.1 = chain) ∧ ∃ n, numberOf? nodes chain = some n

/-- A tally whose chains are served, and whose registries have the texts of their numbers as keys, each of
a chain under which something usable is listed. -/
structure Keyed (nodes : List (String × Json)) (listed : List (String × List String))
    (t : ResolutionTally) : Prop where
  nodup : t.chains.Nodup
  served : ∀ chain ∈ t.chains, Served nodes listed chain
  registered : ∀ key, t.Registers key → ∃ e ∈ listed, e.1 ∈ t.chains ∧ Usable e.2 ∧
    ∃ n, numberOf? nodes e.1 = some n ∧ key = toString n

variable {nodes : List (String × Json)} {listed : List (String × List String)} {t : ResolutionTally}

theorem eq_of_numberOf? {chain : String} {m n : Int} (hn : numberOf? nodes chain = some n)
    (hm : Text.integer chain = .ok m) : m = n := by
  have hnumber := int?_of_numberOf? hn
  rw [Text.int?, hm] at hnumber
  exact Option.some.inj hnumber

/-- What is keyed by numbers is aligned when the chains are spelled as their numbers. -/
theorem Keyed.aligned (h : Keyed nodes listed t) (hcanonical : Canonical nodes listed) : t.Aligned := by
  constructor
  · intro key hkey
    obtain ⟨e, he, hchecked, husable, n, hn, rfl⟩ := h.registered key hkey
    exact hcanonical.spelled e he n hn husable ▸ hchecked
  · refine h.nodup.imp_of_mem fun {chain chain'} hchain hchain' hne hsame => hne ?_
    obtain ⟨⟨e, he, rfl⟩, n, hn⟩ := h.served chain hchain
    obtain ⟨⟨e', he', rfl⟩, n', hn'⟩ := h.served chain' hchain'
    obtain rfl : n = n' := by
      rw [int?_of_numberOf? hn, int?_of_numberOf? hn'] at hsame
      exact Option.some.inj hsame
    exact hcanonical.apart e he e' he' n hn hn'

section Books

/-! What the books of a resolution say of its tally. -/

/-- Only chains are entered that are served, and candidates are looked up behind the entry of their
chain. -/
structure Entered (nodes : List (String × Json)) (listed : List (String × List String))
    (entries : List (Entry α)) : Prop where
  served : ∀ chain, .chain chain ∈ entries → Served nodes listed chain
  behind : ∀ chain address line, .candidate chain address (some line) ∈ entries →
    .chain chain ∈ entries

/-- The chains ahead of a point are the last ones that are listed, and the chain on which a resolution
works has been entered. -/
def Point.Behind (listed : List (String × List String)) (entries : List (Entry α)) : Point α → Prop
  | between chains _ => chains <:+ listed
  | within chain _ _ chains _ => chains <:+ listed ∧ .chain chain ∈ entries

variable {entries more : List (Entry α)}

theorem Entered.empty : Entered nodes listed ([] : List (Entry α)) := by
  constructor <;> intros <;> contradiction

theorem Entered.append (h : Entered nodes listed entries)
    (hserved : ∀ chain, .chain chain ∈ more → Served nodes listed chain)
    (hbehind : ∀ chain address line, .candidate chain address (some line) ∈ more →
      .chain chain ∈ entries) :
    Entered nodes listed (entries ++ more) := by
  refine ⟨fun chain hchain => ?_, fun chain address line hcandidate => List.mem_append_left _ ?_⟩
  · exact (List.mem_append.1 hchain).elim (h.served chain) (hserved chain)
  · exact (List.mem_append.1 hcandidate).elim (h.behind chain address line) (hbehind chain address line)

variable [Seconds α] {out : Outside α} {start begun job : Resolve α} {task : ResolveTask α}
  {p p' : Point α} {processed skipped : Int}

/-- A step enters the chain that it comes to, and looks up candidates of the chain that was entered. -/
theorem Entered.step (h : Entered nodes listed entries) (hp : p.Behind listed entries)
    (hnodes : p.job.task.nodes = nodes) (hstep : Step out p more p') :
    Entered nodes listed (entries ++ more) ∧ p'.Behind listed (entries ++ more) := by
  cases hstep with
  | @passOver chain addresses chains job job₁ job₂ hgoing hnumber hgo =>
    -- What is passed over is not looked up.
    refine ⟨h.append (fun name hname => ?_) (fun name address line hname => ?_),
      (List.suffix_cons _ _).trans hp⟩
    all_goals
      obtain ⟨_, -, heq⟩ := List.mem_map.1 hname
      cases heq
  | @enter chain chainId addresses chains job job₁ job₂ client hgoing hnumber hnoted hclient =>
    have hstanding := (shouldStop_keeps out).of_go hgoing
    have hserved : Served nodes listed chain := by
      refine ⟨⟨(chain, addresses), hp.subset List.mem_cons_self, rfl⟩, chainId, ?_⟩
      rw [← hnodes, ← hnumber, show job₁.task = job.task from congrArg Prod.fst hstanding]
      rfl
    refine ⟨h.append (fun name hname => ?_) (fun name address line hname => ?_),
      (List.suffix_cons _ _).trans hp, List.mem_append_right _ List.mem_cons_self⟩
    · obtain rfl := Entry.chain.inj (List.mem_singleton.1 hname)
      exact hserved
    · cases List.mem_singleton.1 hname
  | @candidate chain address chainId addresses chains v v₁ v₂ v₃ codes hgoing hlookup hgo =>
    obtain ⟨hsuffix, hentered⟩ := hp
    refine ⟨h.append (fun name hname => ?_) (fun name _ _ hname => ?_), hsuffix,
      List.mem_append_left _ hentered⟩
    · cases List.mem_singleton.1 hname
    · obtain ⟨rfl, -⟩ := Entry.candidate.inj (List.mem_singleton.1 hname)
      exact hentered
  | leave hclose hflush =>
    rw [List.append_nil]
    exact ⟨h, hp.1⟩

/-- Wherever a resolution stands, its candidates were looked up behind the entries of their chains. -/
theorem Reaches.entered (hbegin : (begin out).go start = (.ok (), begun))
    (hbegun : Kept out start listed [] (pairs listed) begun)
    (hcandidates : begun.task.candidates = listing listed) (h : Reaches out start listed entries p) :
    Entered start.task.nodes listed entries ∧ p.Behind listed entries := by
  induction h with
  | begun _ => exact ⟨.empty, List.suffix_rfl⟩
  | step hreaches hstep ih =>
    obtain ⟨hkept, -, -⟩ := hreaches.kept hbegin hbegun hcandidates
    exact ih.1.step ih.2 hkept.nodes hstep

/-- The chains of the tally are those that are entered, each once. -/
theorem Books.chains (h : Books out task entries t processed skipped) :
    t.chains.Nodup ∧ ∀ chain, chain ∈ t.chains ↔ .chain chain ∈ entries := by
  induction h with
  | empty => exact ⟨List.nodup_nil, fun chain => by simp⟩
  | chain _ name ih =>
    refine ⟨ResolutionTally.nodup_chains_addChain ih.1 name, fun chain => ?_⟩
    rw [ResolutionTally.mem_chains_addChain, ih.2]
    simp
  | passedOver _ _ _ ih => simpa using ih
  | skipped _ _ _ ih => simpa using ih
  | counted _ _ _ ih => simpa [ResolutionTally.chains_record] using ih

/-- A key of a registry is the text of the number under whose chain a candidate was looked up. -/
theorem Books.registers (h : Books out task entries t processed skipped) {key : String}
    (hkey : t.Registers key) : ∃ chain address line, .candidate chain address (some line) ∈ entries ∧
      (Address.normalize? address).isSome = true ∧ ∃ n, numberOf? task.nodes chain = some n ∧
      key = toString n := by
  have hearlier : ∀ {entries more : List (Entry α)},
      (∃ chain address line, .candidate chain address (some line) ∈ entries ∧
        (Address.normalize? address).isSome = true ∧ ∃ n, numberOf? task.nodes chain = some n ∧
        key = toString n) →
      ∃ chain address line, .candidate chain address (some line) ∈ entries ++ more ∧
        (Address.normalize? address).isSome = true ∧ ∃ n, numberOf? task.nodes chain = some n ∧
        key = toString n := by
    rintro entries more ⟨chain, address, line, hmem, hrest⟩
    exact ⟨chain, address, line, List.mem_append_left _ hmem, hrest⟩
  induction h with
  | empty => exact absurd hkey ResolutionTally.not_registers_empty
  | chain _ name ih => exact hearlier (ih (ResolutionTally.registers_addChain.1 hkey))
  | passedOver _ _ _ ih => exact hearlier (ih hkey)
  | skipped _ _ _ ih => exact hearlier (ih hkey)
  | @counted _ _ _ _ _ chain chainId hnumber address line c hfate ih =>
    rcases ResolutionTally.registers_record.1 hkey with hkey | ⟨-, rfl⟩
    · exact hearlier (ih hkey)
    · obtain ⟨hchain, haddress⟩ := hfate.place
      have hsame : c.chainId = chainId := eq_of_numberOf? hnumber hchain
      exact ⟨chain, address, line, List.mem_append_right _ List.mem_cons_self,
        Option.isSome_iff_exists.2 ⟨_, haddress⟩, chainId, hnumber, by rw [hsame]⟩

theorem Kept.keyed {ahead : List (String × String)} (h : Kept out start listed entries ahead job)
    (hentered : Entered start.task.nodes listed entries) :
    Keyed start.task.nodes listed job.task.tally := by
  obtain ⟨hnodup, hchains⟩ := h.books.chains
  refine ⟨hnodup, fun chain hchain => hentered.served chain ((hchains chain).1 hchain),
    fun key hkey => ?_⟩
  obtain ⟨chain, address, line, hmem, husable, n, hn, hkey⟩ := h.books.registers hkey
  -- A candidate that was looked up is one that is listed.
  have hlisted : (chain, address) ∈ pairs listed := by
    rw [← h.listings]
    exact List.mem_append_left _ (List.mem_filterMap.2 ⟨_, hmem, rfl⟩)
  obtain ⟨e, he, hpair⟩ := List.mem_flatMap.1 hlisted
  obtain ⟨_, haddress, heq⟩ := List.mem_map.1 hpair
  obtain ⟨rfl, rfl⟩ := Prod.mk.inj heq
  exact ⟨e, he, (hchains e.1).2 (hentered.behind _ _ _ hmem), ⟨_, haddress, husable⟩, n, hn, hkey⟩

end Books

section New

/-! The states in which a new resolution is seen. -/

variable [Seconds α]

/-- A resolution is seen at its points and at the end of its run. -/
inductive Seen (out : Outside α) (start : Resolve α) (listed : List (String × List String)) :
    Resolve α → Prop
  | between {entries : List (Entry α)} {p : Point α} (h : Reaches out start listed entries p) :
    Seen out start listed p.job
  | last : Seen out start listed ((run out).go start).2

variable {out : Outside α} {catalog : List Definition} {folder : Folder} {rounds : Int} {timeout : Float}
  {interval : α} {journal : Journal α} {job : Resolve α}

/-- Whatever comes in the way of a resolution, its tally is keyed by the numbers of the checked chains. -/
theorem Seen.keyed (h : Seen out (ofListed catalog folder listed nodes rounds timeout interval journal)
    listed job) : Keyed nodes listed job.task.tally := by
  obtain ⟨begun, hbegin, hcandidates, hbegun⟩ :=
    kept_begin out catalog folder listed nodes rounds timeout interval journal
  cases h with
  | between h => exact (h.kept hbegin hbegun hcandidates).1.keyed (h.entered hbegin hbegun hcandidates).1
  | last =>
    -- The tally of the last point is that of the whole run.
    obtain ⟨entries, p, h, r, worked, hresume, hstanding, -⟩ :=
      (Reaches.begun hbegin).exists_rests hbegun trivial
    obtain ⟨hkept, -, hwork⟩ := h.kept hbegin hbegun hcandidates
    cases hrun : (run out).go (ofListed catalog folder listed nodes rounds timeout interval journal) with
    | mk result last =>
    obtain ⟨completed, haccount, -⟩ := account_run hbegin (hwork.trans hresume) hrun
    have htally : last.task.tally = worked.task.tally := congrArg Prod.fst haccount
    change Keyed nodes listed last.task.tally
    rw [htally]
    exact (hkept.of_standing hstanding).keyed (h.entered hbegin hbegun hcandidates).1

end New

section Refused

/-! Nodes that refuse every request, and a corpus that has the code of a diamond for every contract. -/

variable [Seconds α]

/-- On nodes that refuse every request a contract with a diamond is counted as one. -/
theorem exists_diamond_of_refuses {out : Outside α} (hout : ∀ sent p, (out.reply sent p).delivery.Refuses)
    {l : Line α} {urls : List Json} (hends : l.client.endpoints = .list urls) (hurls : urls ≠ [])
    {found : List Match} (hdistinct : (found.map (·.pattern)).Nodup)
    (hdiamond : .diamond ∈ found.map (·.pattern)) (chain : Option Int) (record : ContractRecord) :
    ∃ c, ((Analysis.resolve out chain record found).go l).1 = .ok c ∧ c.isDiamond = true := by
  obtain ⟨m, hm, hpattern⟩ := List.mem_map.1 hdiamond
  have hkind : Kind.ofPatterns (found.map (·.pattern)) = .diamond :=
    Kind.ofPatterns_eq_diamond_iff.2 hdiamond
  rw [Analysis.resolve_of_diamond out chain record hdistinct hm hpattern,
    Act.go_bind_of_ok (Resolution.go_resolve_of_refuses hout hends hurls hpattern chain record.address)]
  exact ⟨_, rfl, beq_iff_eq.2 hkind⟩

/-- The code of a diamond, which shows one other pattern. -/
def diamondCode : String :=
  "0x637a0ed627635c60da1bf4"

/-- The nodes refuse every request, and the corpus has the code of a diamond for every contract. -/
def refusedDiamonds : Outside α :=
  { Outside.replying (.http 200 .empty) with codes := fun _ _ => [.str diamondCode] }

theorem exists_matches_diamondCode : ∃ found, Detection.inText Catalog.builtIn diamondCode = .ok found ∧
    found.map (·.pattern) = [.legacyUpgradeable, .diamond] := by
  have h : (Detection.inText Catalog.builtIn diamondCode).toOption.map (·.map (·.pattern)) =
      some [.legacyUpgradeable, .diamond] := by decide +kernel
  obtain ⟨found, hfound, hpatterns⟩ := Option.map_eq_some_iff.1 h
  exact ⟨found, eq_ok_of_toOption hfound, hpatterns⟩

omit [Seconds α] in
theorem exists_ofCode_diamondCode {chain address normal : String} {n : Int}
    (hchain : Text.integer chain = .ok n) (haddress : Address.normalize? address = some normal) :
    ∃ record, ContractRecord.ofCode (.str chain) (.str address) (.str diamondCode) = .ok record ∧
      record.bytecode = diamondCode := by
  have hnormal := ContractRecord.readAddress_of_isNormal (Address.isNormal_of_normalize? haddress)
  have hinteger : (Json.str chain).integer = .ok n := by
    rw [Json.integer, hchain]
    rfl
  refine ⟨⟨n, normal, diamondCode, none, none, none⟩, ?_, rfl⟩
  rw [ContractRecord.ofCode_of_normalize? haddress]
  unfold ContractRecord.ofCode
  rw [hinteger]
  change ContractRecord.ofFields? _ = _
  refine ContractRecord.ofFields?_eq_ok_iff.2
    (ContractRecord.ofFields_eq_ok_iff.2 ⟨?_, ?_, ?_, rfl, rfl, rfl⟩)
  · exact Checked.required_eq_ok_iff.2 ⟨_, rfl, rfl⟩
  · exact Checked.required_eq_ok_iff.2 ⟨_, rfl, hnormal⟩
  · rfl

theorem exists_found_refusedDiamonds {chain address : String} {n : Int} (hchain : Text.int? chain = some n)
    (haddress : (Address.normalize? address).isSome = true) : ∃ record found,
      Found (refusedDiamonds : Outside α) Catalog.builtIn chain n address record found ∧
      found.map (·.pattern) = [.legacyUpgradeable, .diamond] := by
  obtain ⟨normal, hnormal⟩ := Option.isSome_iff_exists.1 haddress
  obtain ⟨record, hrecord, hcode⟩ := exists_ofCode_diamondCode (eq_ok_of_toOption hchain) hnormal
  obtain ⟨found, hfound, hpatterns⟩ := exists_matches_diamondCode
  refine ⟨record, found, ⟨⟨.str diamondCode, rfl, hrecord⟩, hcode ▸ hfound, ?_⟩, hpatterns⟩
  have hlength := congrArg List.length hpatterns
  rw [List.length_map] at hlength
  exact hlength.ge

/-- On a chain with a node every candidate whose address a record can have is counted as a diamond. -/
theorem Fates.exists_diamond {task : ResolveTask α} {fate : String → String → Option Classification}
    (hfates : Fates refusedDiamonds task fate) (hcatalog : task.catalog = Catalog.builtIn)
    {urls : List (String × String)} (hnodes : task.nodes = nodesAt urls) {chain address : String} {n : Int}
    (hnumber : numberOf? task.nodes chain = some n) (haddress : (Address.normalize? address).isSome = true)
    (journal : Journal α) : ∃ c, fate chain address = some c ∧ c.isDiamond = true := by
  obtain ⟨l, hl⟩ := exists_serves hnumber journal
  obtain ⟨url, hends⟩ : ∃ url, l.client.endpoints = .list [.str url] := by
    have hset := isSet_of_numberOf? hnumber
    obtain ⟨client, hclient, hreach⟩ := hl
    have hends : l.client.endpoints = client.endpoints := congrArg Prod.fst hreach
    rw [hends]
    cases hlookup : Json.lookup? task.nodes chain with
    | none =>
      rw [hlookup] at hset
      cases hset
    | some v =>
      obtain ⟨url, rfl⟩ := lookup?_nodesAt urls chain (hnodes ▸ hlookup)
      rw [hlookup] at hclient
      obtain rfl := Except.ok.inj hclient
      exact ⟨url, rfl⟩
  obtain ⟨record, found, hfound, hpatterns⟩ :=
    exists_found_refusedDiamonds (α := α) (int?_of_numberOf? hnumber) haddress
  have hrefuses : ∀ sent p, ((refusedDiamonds : Outside α).reply sent p).delivery.Refuses :=
    fun _ _ => .empty
  obtain ⟨c, hasked, hdiamond⟩ := exists_diamond_of_refuses hrefuses hends
    (List.cons_ne_nil _ _) (by rw [hpatterns]; decide) (by rw [hpatterns]; decide) (some n) record
  exact ⟨c, (hfates hnumber hl c).2 ⟨record, found, hcatalog ▸ hfound, hasked⟩, hdiamond⟩

end Refused

section Changes

/-! Which chains the changes of a listing leave in a tally. -/

variable {fate : String → String → Option Classification} {chain : String}

theorem chain_mem_changes : .chain chain ∈ changes nodes fate listed ↔ Served nodes listed chain := by
  constructor
  · intro h
    obtain ⟨e, he, hchange⟩ := List.mem_flatMap.1 h
    unfold entryChanges at hchange
    split at hchange
    · rcases List.mem_cons.1 hchange with heq | hcontract
      · obtain rfl := Change.chain.inj heq
        exact ⟨⟨e, he, rfl⟩, Option.isSome_iff_exists.1 ‹_›⟩
      · obtain ⟨_, -, haddress⟩ := List.mem_filterMap.1 hcontract
        obtain ⟨_, -, heq⟩ := Option.map_eq_some_iff.1 haddress
        cases heq
    · cases hchange
  · rintro ⟨⟨e, he, rfl⟩, n, hn⟩
    refine List.mem_flatMap.2 ⟨e, he, ?_⟩
    rw [entryChanges_of_some hn]
    exact List.mem_cons_self

theorem contract_mem_changes {e : String × List String} (he : e ∈ listed) {n : Int}
    (hn : numberOf? nodes e.1 = some n) {address : String} (haddress : address ∈ e.2) {c : Classification}
    (hc : fate e.1 address = some c) : .contract c ∈ changes nodes fate listed := by
  refine List.mem_flatMap.2 ⟨e, he, ?_⟩
  rw [entryChanges_of_some hn]
  refine List.mem_cons_of_mem _ (List.mem_filterMap.2 ⟨address, haddress, ?_⟩)
  rw [hc]
  rfl

/-- If everything usable is counted as a diamond, a listing whose changes leave an aligned tally is
canonical. -/
theorem canonical_of_aligned (hdiamonds : ∀ e ∈ listed, ∀ n, numberOf? nodes e.1 = some n →
      ∀ address ∈ e.2, (Address.normalize? address).isSome = true →
      ∃ c, fate e.1 address = some c ∧ c.isDiamond = true ∧ c.chainId = n)
    (h : ((changes nodes fate listed).foldl change {}).Aligned) : Canonical nodes listed := by
  have hchains : ∀ chain, chain ∈ ((changes nodes fate listed).foldl change {}).chains ↔
      Served nodes listed chain := fun chain => by
    rw [ResolutionTally.mem_chains_changes, chain_mem_changes]
    exact ⟨fun h => h.resolve_left List.not_mem_nil, .inr⟩
  -- Of two chains with one number only one can be in the list.
  have hone : ∀ {chain chain' n}, Served nodes listed chain → Served nodes listed chain' →
      numberOf? nodes chain = some n → numberOf? nodes chain' = some n → chain = chain' := by
    intro chain chain' n hserved hserved' hn hn'
    by_contra hne
    have : Std.Symm fun chain chain' : String => Text.int? chain ≠ Text.int? chain' :=
      ⟨fun _ _ => Ne.symm⟩
    refine h.apart.forall ((hchains chain).2 hserved) ((hchains chain').2 hserved') hne ?_
    rw [int?_of_numberOf? hn, int?_of_numberOf? hn']
  refine ⟨fun e he n hn ⟨address, haddress, husable⟩ => ?_, fun e he e' he' n hn hn' =>
    hone ⟨⟨e, he, rfl⟩, n, hn⟩ ⟨⟨e', he', rfl⟩, n, hn'⟩ hn hn'⟩
  obtain ⟨c, hc, hdiamond, rfl⟩ := hdiamonds e he n hn address haddress husable
  have hregistered : ((changes nodes fate listed).foldl change {}).Registers (toString c.chainId) :=
    (ResolutionTally.registers_changes _ _).2
      (.inr ⟨c, contract_mem_changes he hn haddress hc, .inl hdiamond, rfl⟩)
  -- The text of the number is a chain of the list, and it spells this number.
  have hserved := (hchains _).1 (h.registered _ hregistered)
  obtain ⟨m, hm⟩ := hserved.2
  obtain rfl : m = c.chainId :=
    Text.eq_of_integer_toString (eq_ok_of_toOption (int?_of_numberOf? hm))
  exact hone ⟨⟨e, he, rfl⟩, _, hn⟩ hserved hn hm

end Changes

/-- The chains of the registries and the list of checked chains. Whatever comes in the way of a resolution,
whatever its nodes reply and wherever it is seen, the keys of its registries are texts of the numbers of
checked chains; and if the chains are spelled as their numbers, the keys themselves are checked chains, and
no two checked chains have one number. If they are not, there are nodes and a corpus with which a run comes
through and ends with a key that is no checked chain, or with two checked chains that have one number. -/
theorem aligned_iff_canonical [Seconds α] (folder : Folder) (listed : List (String × List String))
    (urls : List (String × String)) (rounds : Int) (timeout : Float) (interval : α) (journal : Journal α) :
    let start := fun catalog =>
      ofListed catalog folder listed (nodesAt urls) rounds timeout interval journal
    (∀ catalog out job, Seen out (start catalog) listed job →
      Keyed (nodesAt urls) listed job.task.tally ∧
        (Canonical (nodesAt urls) listed → job.task.tally.Aligned)) ∧
    (journal.stopped = false → Snapshot.Ready journal.disk folder.path ResolutionTally.fileNames →
      listedCount listed < 2 ^ 64 → ¬Canonical (nodesAt urls) listed →
        ∃ out last, Calm out ∧ (run out).go (start Catalog.builtIn) = (.ok (), last) ∧
          last.completed = true ∧ ¬last.task.tally.Aligned) := by
  intro start
  refine ⟨fun catalog out job h => ⟨h.keyed, h.keyed.aligned⟩,
    fun hstopped hready hfew hspelled => ?_⟩
  have hcalm : Calm (refusedDiamonds : Outside α) := ⟨fun _ => rfl, fun _ => rfl, fun _ => rfl⟩
  have hstateless : (refusedDiamonds : Outside α).Stateless := ⟨fun _ _ _ _ _ _ => rfl⟩
  obtain ⟨fate, hfates⟩ := exists_fates hstateless (start Catalog.builtIn).task journal
  obtain ⟨last, hrun, hcompleted, htally⟩ := hcalm.exists_tally hstopped hready hfew hfates
  refine ⟨refusedDiamonds, last, hcalm, hrun, hcompleted, fun haligned => hspelled ?_⟩
  rw [htally] at haligned
  refine canonical_of_aligned (fun e he n hn address haddress husable => ?_) haligned
  obtain ⟨c, hc, hdiamond⟩ := hfates.exists_diamond rfl rfl hn husable journal
  exact ⟨c, hc, hdiamond, eq_of_numberOf? hn (hfates.place hn journal hc).1⟩

/-- A candidate is listed under a number with a zero in front of it, and is registered under the number. -/
theorem aligned_iff_canonical_of_leading_zero :
    let listed := [("01", ["0x1111111111111111111111111111111111111111"])]
    let nodes := nodesAt [("01", "http://rpc")]
    let start : Resolve Rat :=
      ofListed Catalog.builtIn ⟨["out"], "out"⟩ listed nodes 1 30 0 { clock := 0 }
    let last := ((run refusedDiamonds).go start).2
    last.task.tally.chains = ["01"] ∧ last.task.tally.diamonds.keys = ["1"] ∧
      Keyed nodes listed last.task.tally ∧ ¬Canonical nodes listed ∧
      ∃ out last, Calm out ∧ (run out).go start = (.ok (), last) ∧ ¬last.task.tally.Aligned := by
  intro listed nodes start last
  have hspelled : ¬Canonical nodes listed := fun h =>
    absurd (h.spelled _ List.mem_cons_self 1 (by decide +kernel)
      ⟨_, List.mem_cons_self, by decide +kernel⟩) (by decide)
  have htally : last.task.tally.chains = ["01"] ∧ last.task.tally.diamonds.keys = ["1"] := by
    decide +kernel
  obtain ⟨hseen, hends⟩ := aligned_iff_canonical ⟨["out"], "out"⟩ listed [("01", "http://rpc")]
    1 30 (0 : Rat)
    { clock := 0 }
  obtain ⟨out, last', hcalm, hrun, -, hunaligned⟩ :=
    hends rfl (Snapshot.ready_empty (by decide) (by decide)) (by decide) hspelled
  exact ⟨htally.1, htally.2, (hseen Catalog.builtIn refusedDiamonds last .last).1, hspelled, out,
    last', hcalm,
    hrun, hunaligned⟩

end ProxyCensus.Resolve
