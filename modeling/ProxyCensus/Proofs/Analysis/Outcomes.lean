import ProxyCensus.Proofs.Analysis
import ProxyCensus.Proofs.Resolution.Outcomes

/-!
# What an analysis makes of its resolutions

A contract is classified by the outcomes of the resolutions of its matches. Main statement: of a diamond
only its own match is resolved, and it counts its facets or the failure; of any other contract every match
is resolved once, in the order of the matches and whatever came of those before, the failed ones are listed
as unresolved, and the addresses of the others once each, in the order in which they were found.
-/

namespace ProxyCensus.Analysis

/-- The addresses of the resolutions that found some. -/
def addressesOf (outcomes : List (Option Resolved)) : List String :=
  (outcomes.filterMap id).flatMap (·.addresses)

def missed (outcomes : List (Match × Option Resolved)) : List Pattern :=
  (outcomes.filter (·.2.isNone)).map (·.1.pattern)

/-- What is said of a contract without a diamond whose matches were resolved, in their order, with the
given outcomes. -/
structure ByOutcomes (record : ContractRecord) (found : List Match)
    (outcomes : List (Option Resolved)) (c : Classification) : Prop where
  chainId : c.chainId = record.chainId
  address : c.address = record.address
  patterns : c.patterns = found.map (·.pattern)
  facets : c.facets = []
  resolved : outcomes.length = found.length
  unresolved : c.unresolved = missed (found.zip outcomes)
  implementations : c.implementations = (addressesOf outcomes).eraseDups
  few : c.implementations.length + c.unresolved.length ≤ c.patterns.length
  none_iff : c.implementations = [] ↔ c.unresolved = c.patterns

/-- What is said of a contract with a diamond whose match was resolved with the given outcome. -/
structure ByDiamond (record : ContractRecord) (found : List Match) (outcome : Option Resolved)
    (c : Classification) : Prop where
  chainId : c.chainId = record.chainId
  address : c.address = record.address
  patterns : c.patterns = found.map (·.pattern)
  implementations : c.implementations = []
  counted : ∀ r, outcome = some r → c.facets = r.addresses ∧ c.facets ≠ [] ∧ c.unresolved = []
  failed : outcome = none → c.facets = [] ∧ c.unresolved = [.diamond]

theorem addNew_eraseDups (addresses : List String) :
    ∀ seen, addNew seen.eraseDups addresses = (seen ++ addresses).eraseDups := by
  induction addresses with
  | nil => exact fun seen => congrArg List.eraseDups (List.append_nil seen).symm
  | cons a rest ih =>
    intro seen
    have hstep : (if seen.eraseDups.contains a then seen.eraseDups else seen.eraseDups ++ [a]) =
        (seen ++ [a]).eraseDups := by
      rw [List.eraseDups_append, List.cons_removeAll]
      by_cases ha : a ∈ seen
      · simp [ha]
      · simp [ha, List.eraseDups_cons]
    unfold addNew at ih ⊢
    rw [List.foldl_cons, hstep, ih, List.append_assoc]
    rfl

def addOutcomes (c : Classification) (outcomes : List (Match × Option Resolved)) : Classification :=
  outcomes.foldl (fun c x => addOutcome c x.1.pattern x.2) c

theorem addOutcomes_eq (outcomes : List (Match × Option Resolved)) :
    ∀ (c : Classification) (seen : List String), c.implementations = seen.eraseDups →
      addOutcomes c outcomes =
        { c with implementations := (seen ++ addressesOf (outcomes.map (·.2))).eraseDups
                 unresolved := c.unresolved ++ missed outcomes } := by
  induction outcomes with
  | nil =>
    intro c seen h
    simp [addOutcomes, addressesOf, missed, ← h]
  | cons x rest ih =>
    obtain ⟨m, outcome⟩ := x
    intro c seen h
    change addOutcomes (addOutcome c m.pattern outcome) rest = _
    cases outcome with
    | none =>
      rw [ih _ seen (show (addOutcome c m.pattern none).implementations = _ from h)]
      simp [addOutcome, addressesOf, missed]
    | some r =>
      have hnew : (addOutcome c m.pattern (some r)).implementations = (seen ++ r.addresses).eraseDups := by
        rw [← addNew_eraseDups, ← h]
        rfl
      rw [ih _ _ hnew]
      simp [addOutcome, addressesOf, missed]

variable {α : Type} [Seconds α] (out : Outside α) (chain : Option Int)

/-- Resolves each of some matches of the contract at an address once, in their order. -/
def resolveAll (address : String) (found : List Match) : Act (Line α) (List (Option Resolved)) :=
  found.mapM fun m => Resolution.resolve out chain m address

/-- The matches of a contract are resolved in their order, and then the outcomes are noted. -/
theorem resolveEach_eq (found : List Match) : ∀ c : Classification,
    resolveEach out chain c found = (do
      let outcomes ← resolveAll out chain c.address found
      return addOutcomes c (found.zip outcomes)) := by
  induction found with
  | nil => exact fun c => rfl
  | cons m rest ih =>
    intro c
    have haddress : ∀ outcome, (addOutcome c m.pattern outcome).address = c.address := by
      intro outcome
      cases outcome <;> rfl
    unfold resolveEach resolveAll
    simp only [List.mapM_cons, bind_assoc, pure_bind, ih, haddress, List.zip_cons_cons]
    rfl

/-- Whatever the nodes answer, each outcome has the shape that fits its match. -/
theorem resolveAll_yields (address : String) (found : List Match) :
    (resolveAll out chain address found).Yields
      (List.Forall₂ (fun m outcome => ∀ r ∈ outcome, Resolution.Shaped m r) found) := by
  induction found with
  | nil => exact .pure .nil
  | cons m rest ih =>
    rw [resolveAll, List.mapM_cons]
    exact (Resolution.resolve_yields out chain m address).bind fun outcome houtcome =>
      ih.bind fun outcomes houtcomes => .pure (.cons houtcome houtcomes)

/-- Without a diamond every match is counted once, by its address or as missed. -/
theorem length_addressesOf_add_missed {found : List Match} {outcomes : List (Option Resolved)}
    (h : List.Forall₂ (fun m outcome => ∀ r ∈ outcome, Resolution.Shaped m r) found outcomes)
    (hfound : ∀ m ∈ found, m.pattern ≠ .diamond) :
    (addressesOf outcomes).length + (missed (found.zip outcomes)).length = found.length := by
  induction h with
  | nil => rfl
  | @cons m outcome found outcomes hm _ ih =>
    obtain ⟨hdiamond, hrest⟩ := List.forall_mem_cons.1 hfound
    have hrest := ih hrest
    cases outcome with
    | none =>
      simp only [addressesOf, missed, List.filterMap_cons, id, List.zip_cons_cons, List.filter_cons,
        Option.isNone_none, if_true, List.map_cons, List.length_cons] at hrest ⊢
      omega
    | some r =>
      have hshaped := hm r rfl
      have hone := hshaped.single hdiamond
      have hsome := List.length_pos_iff.2 hshaped.found
      simp only [addressesOf, missed, List.filterMap_cons, id, List.flatMap_cons, List.length_append,
        List.zip_cons_cons, List.filter_cons, Option.isNone_some, Bool.false_eq_true, if_false,
        List.length_cons] at hrest ⊢
      omega

theorem missed_sublist {found : List Match} {outcomes : List (Option Resolved)}
    (h : found.length = outcomes.length) :
    (missed (found.zip outcomes)).Sublist (found.map (·.pattern)) := by
  have hfound : (found.zip outcomes).map (·.1) = found := List.map_fst_zip h.le
  have hpart := (List.filter_sublist (p := (·.2.isNone)) (l := found.zip outcomes)).map (·.1.pattern)
  have hall : (found.zip outcomes).map (·.1.pattern) = found.map (·.pattern) := by
    conv_rhs => rw [← hfound, List.map_map]
    rfl
  exact hall ▸ hpart

theorem byOutcomes (record : ContractRecord) {found : List Match} {outcomes : List (Option Resolved)}
    (h : List.Forall₂ (fun m outcome => ∀ r ∈ outcome, Resolution.Shaped m r) found outcomes)
    (hfound : ∀ m ∈ found, m.pattern ≠ .diamond) :
    ByOutcomes record found outcomes
      (addOutcomes (Classification.ofMatches record found) (found.zip outcomes)) := by
  have hlength : found.length = outcomes.length := h.length_eq
  have hcount := length_addressesOf_add_missed h hfound
  have hpart := missed_sublist hlength
  have hdistinct : (addressesOf outcomes).eraseDups.length ≤ (addressesOf outcomes).length :=
    ((Resolution.nodup_eraseDups _).subperm fun _ => List.mem_eraseDups.1).length_le
  have hnil : (addressesOf outcomes).eraseDups = [] ↔ addressesOf outcomes = [] := by
    cases addressesOf outcomes <;> simp [List.eraseDups_cons]
  have heq := addOutcomes_eq (found.zip outcomes) (Classification.ofMatches record found) [] rfl
  rw [List.map_snd_zip hlength.ge, List.nil_append] at heq
  rw [heq]
  refine ⟨rfl, rfl, rfl, rfl, hlength.symm, List.nil_append _, rfl, ?_, ?_⟩
  · change (addressesOf outcomes).eraseDups.length + ([] ++ missed (found.zip outcomes)).length ≤
      (found.map (·.pattern)).length
    rw [List.nil_append, List.length_map]
    omega
  · change (addressesOf outcomes).eraseDups = [] ↔ [] ++ missed (found.zip outcomes) =
      found.map (·.pattern)
    rw [hnil, List.nil_append, ← List.length_eq_zero_iff]
    constructor
    · intro hnone
      refine hpart.eq_of_length ?_
      rw [List.length_map]
      omega
    · intro hall
      have := congrArg List.length hall
      rw [List.length_map] at this
      omega

omit [Seconds α] in
theorem go_reportUnresolved (c : Classification) (l : Line α) : ∃ logs,
    (reportUnresolved c).go l = (.ok (), { l with journal := { l.journal with logs := logs } }) := by
  unfold reportUnresolved
  split
  · exact ⟨_, rfl⟩
  · exact ⟨l.journal.logs, rfl⟩

/-- Without a diamond the matches are resolved one after the other; what follows only writes a message. -/
theorem resolve_of_not_diamond (record : ContractRecord) {found : List Match}
    (hfound : ∀ m ∈ found, m.pattern ≠ .diamond) :
    resolve out chain record found = (do
      let outcomes ← resolveAll out chain record.address found
      let c := addOutcomes (Classification.ofMatches record found) (found.zip outcomes)
      reportUnresolved c
      return c) := by
  have hdiamond : Kind.ofPatterns (found.map (·.pattern)) ≠ .diamond := by
    intro h
    obtain ⟨m, hm, hpattern⟩ := List.mem_map.1 (Kind.ofPatterns_eq_diamond_iff.1 h)
    exact hfound m hm hpattern
  have hkind : (Classification.ofMatches record found).kind = Kind.ofPatterns (found.map (·.pattern)) := rfl
  have heach := resolveEach_eq out chain found (Classification.ofMatches record found)
  unfold resolve
  dsimp only
  split
  · rename_i hnone
    obtain rfl := List.map_eq_nil_iff.1 (Kind.ofPatterns_eq_nonProxy_iff.1 (hkind ▸ hnone))
    rfl
  · rename_i h
    exact absurd (hkind ▸ h) hdiamond
  · rw [heach, bind_assoc]
    simp only [pure_bind]
    rfl

theorem byDiamond (record : ContractRecord) (found : List Match) {m : Match} {outcome : Option Resolved}
    (h : ∀ r ∈ outcome, Resolution.Shaped m r) :
    ByDiamond record found outcome (addFacets (Classification.ofMatches record found) outcome) := by
  cases outcome with
  | none => exact ⟨rfl, rfl, rfl, rfl, fun r hr => (nomatch hr), fun _ => ⟨rfl, rfl⟩⟩
  | some r =>
    refine ⟨rfl, rfl, rfl, rfl, fun r' hr => ?_, fun hnone => nomatch hnone⟩
    obtain rfl := Option.some.inj hr
    exact ⟨rfl, (h r rfl).found, rfl⟩

/-- Of several patterns, each shown once, the diamond is resolved and no other. -/
theorem resolve_of_diamond (record : ContractRecord) {found : List Match}
    (hdistinct : (found.map (·.pattern)).Nodup) {m : Match} (hm : m ∈ found)
    (hpattern : m.pattern = .diamond) :
    resolve out chain record found = (do
      let outcome ← Resolution.resolve out chain m record.address
      return addFacets (Classification.ofMatches record found) outcome) := by
  have hkind : (Classification.ofMatches record found).kind = .diamond :=
    Kind.ofPatterns_eq_diamond_iff.2 (hpattern ▸ List.mem_map_of_mem hm)
  obtain ⟨first, hfirst⟩ : ∃ first, found.find? (·.pattern == .diamond) = some first :=
    Option.isSome_iff_exists.1 (List.find?_isSome.2 ⟨m, hm, by simp [hpattern]⟩)
  obtain rfl : first = m := by
    have hdiamond : first.pattern = .diamond := by simpa using List.find?_some hfirst
    exact List.inj_on_of_nodup_map hdistinct (List.mem_of_find?_eq_some hfirst) hm
      (hdiamond.trans hpattern.symm)
  unfold resolve
  dsimp only
  rw [hkind, hfirst]

/-- An analysis classifies a contract by the outcomes of its resolutions. Of a diamond only its own match is
resolved. Of any other contract all matches are resolved in their order, each once and whatever came of
those before. When one of these resolutions fails for a reason that is not its own, the analysis fails in
the same way, and otherwise it returns. -/
theorem classified_by_outcomes (record : ContractRecord) {found : List Match}
    (hdistinct : (found.map (·.pattern)).Nodup) (l : Line α) :
    (∀ m ∈ found, m.pattern = .diamond →
      let own := (Resolution.resolve out chain m record.address).go l
      (∀ e l', own = (.error e, l') → (resolve out chain record found).go l = (.error e, l')) ∧
      ∀ outcome l', own = (.ok outcome, l') →
        ∃ c, (resolve out chain record found).go l = (.ok c, l') ∧ ByDiamond record found outcome c) ∧
    ((∀ m ∈ found, m.pattern ≠ .diamond) →
      let each := (resolveAll out chain record.address found).go l
      (∀ e l', each = (.error e, l') → (resolve out chain record found).go l = (.error e, l')) ∧
      ∀ outcomes l', each = (.ok outcomes, l') → ∃ c logs,
        (resolve out chain record found).go l =
          (.ok c, { l' with journal := { l'.journal with logs := logs } }) ∧
        ByOutcomes record found outcomes c) := by
  constructor
  · intro m hm hpattern own
    rw [resolve_of_diamond out chain record hdistinct hm hpattern, Act.go_bind]
    constructor
    · intro e l' h
      rw [show (Resolution.resolve out chain m record.address).go l = _ from h]
    · intro outcome l' h
      have hshaped := Resolution.resolve_yields out chain m record.address l outcome (congrArg Prod.fst h)
      rw [show (Resolution.resolve out chain m record.address).go l = _ from h]
      exact ⟨_, rfl, byDiamond record found hshaped⟩
  · intro hfound each
    rw [resolve_of_not_diamond out chain record hfound, Act.go_bind]
    constructor
    · intro e l' h
      rw [show (resolveAll out chain record.address found).go l = _ from h]
    · intro outcomes l' h
      have hshaped := resolveAll_yields out chain record.address found l outcomes (congrArg Prod.fst h)
      rw [show (resolveAll out chain record.address found).go l = _ from h]
      dsimp only
      obtain ⟨logs, hreport⟩ := go_reportUnresolved
        (addOutcomes (Classification.ofMatches record found) (found.zip outcomes)) l'
      rw [Act.go_bind, hreport]
      exact ⟨_, logs, rfl, byOutcomes record hshaped hfound⟩

theorem classified_by_three_outcomes :
    let target := String.ofList ('0' :: 'x' :: Hex.ofNat 40 0xabc)
    let word := String.ofList ('0' :: 'x' :: Hex.ofNat 64 (2 ^ 200 + 0xabc))
    let found : List Match := [
      { pattern := .fixed, implementation := some target },
      { pattern := .eip1967, slot := some "0x0" },
      { pattern := .legacyUpgradeable, selector := some "0x5c60da1b" }]
    let record : ContractRecord := { chainId := 1, address := String.ofList ('0' :: 'x' :: Hex.ofNat 40 1) }
    let l : Line Rat := ⟨⟨.list [.str "http://rpc"], 3, 30, 0, 0, 0, .none⟩, { clock := 0 }⟩
    let out : Outside Rat := .replying (.http 200 (.document (.obj [("result", .str word)])))
    (found.map (·.pattern)).Nodup ∧ (∀ m ∈ found, m.pattern ≠ .diamond) ∧
      ∃ c l', (resolve out (some 1) record found).go l = (.ok c, l') ∧
        c.implementations = [target] ∧ c.unresolved = [.legacyUpgradeable] := by
  intro target word found record l out
  have hdistinct : (found.map (·.pattern)).Nodup := by decide
  have hfound : ∀ m ∈ found, m.pattern ≠ .diamond := by decide
  have heach : ((resolveAll out (some 1) record.address found).go l).1.toOption.map
      (fun outcomes => (addressesOf outcomes, missed (found.zip outcomes))) =
        some ([target, target], [.legacyUpgradeable]) := by decide +kernel
  obtain ⟨outcomes, hresult, hboth⟩ := Option.map_eq_some_iff.1 heach
  obtain ⟨haddresses, hmissed⟩ := Prod.mk.inj hboth
  obtain ⟨-, hbare⟩ := classified_by_outcomes out (some 1) record hdistinct l
  obtain ⟨c, logs, hgo, hc⟩ := (hbare hfound).2 outcomes _ (Prod.ext (eq_ok_of_toOption hresult) rfl)
  refine ⟨hdistinct, hfound, c, _, hgo, ?_, hc.unresolved.trans hmissed⟩
  rw [hc.implementations, haddresses]
  decide

end ProxyCensus.Analysis
