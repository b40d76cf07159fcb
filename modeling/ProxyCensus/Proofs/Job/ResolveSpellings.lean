import ProxyCensus.Proofs.Corpus
import ProxyCensus.Proofs.Hex.Spelling
import ProxyCensus.Proofs.Job.ResolveListings

/-!
# Spellings of candidates

A record is made of the normal form of an address, and the corpus is asked with a key of its own. Main
statement: all spellings of an address with a small marker, or with none, have the same key and are
resolved alike; a spelling with a capital marker has another key, which is the key of no contract. A corpus
that answers such a key has nothing under it, and the candidate is skipped; one that refuses the key ends
the run, as a failed question always does.
-/

namespace ProxyCensus

open Corpus (addressKey)

namespace Address

/-- A text that begins with a capital marker. -/
def CapitalMarked (s : String) : Prop :=
  s.toList.take 2 = ['0', 'X']

instance (s : String) : Decidable (CapitalMarked s) :=
  inferInstanceAs (Decidable (_ = _))

/-- The digits behind the marker of a normal form. -/
def digitsOf (address : String) : String :=
  String.ofList (address.toList.drop 2)

end Address

open Address (CapitalMarked digitsOf normalize?)

variable {s s' address : String}

/-- The key of an accepted text has the digits of its normal form, behind the marker if that is capital. -/
theorem Corpus.addressKey_of_normalize? (h : normalize? s = some address) :
    addressKey s = if CapitalMarked s then "0x" ++ digitsOf address else digitsOf address := by
  have hascii := Address.ascii_of_normalize? h
  obtain ⟨marker, digits, hmarker, hsplit, hlength, hdigits, rfl⟩ := Address.exists_of_normalize? h
  have hkey : digitsOf (String.ofList ('0' :: 'x' :: digits.map Char.toLower)) =
      String.ofList (digits.map Char.toLower) := by
    rw [digitsOf, String.toList_ofList]
    rfl
  have hlower : ∀ cs : List Char, (∀ c ∈ cs, c ∈ s.toList) →
      Text.lowerFrom [] cs = cs.map Char.toLower := fun cs hcs =>
    Text.lowerFrom_of_ascii [] fun c hc => hascii c (hcs c hc)
  rw [hsplit] at hlower
  have hcapital : CapitalMarked s ↔ (marker ++ digits).take 2 = ['0', 'X'] := by
    unfold CapitalMarked
    rw [hsplit]
  rw [hkey]
  unfold addressKey
  rw [hsplit]
  simp only [List.mem_cons, List.not_mem_nil, or_false] at hmarker
  rcases hmarker with rfl | rfl | rfl
  · -- Without a marker the text begins with two digits.
    have hx : ∀ c ∈ digits, c ≠ 'x' ∧ c ≠ 'X' := fun c hc => by
      obtain ⟨n, hn⟩ := Option.isSome_iff_exists.1 (List.all_eq_true.1 hdigits c hc)
      exact Hex.ne_x_of_value? hn
    rw [List.nil_append] at hcapital hlower ⊢
    have hnone : ¬CapitalMarked s := by
      intro h
      have hmem : 'X' ∈ digits.take 2 := by rw [hcapital.1 h]; simp
      exact (hx 'X' (List.mem_of_mem_take hmem)).2 rfl
    rw [if_neg hnone]
    dsimp only
    split
    · exact absurd rfl (hx 'x' (by simp)).1
    · rw [hlower digits fun c hc => hc]
  · have hnone : ¬CapitalMarked s := fun h => absurd (hcapital.1 h) (by simp)
    rw [if_neg hnone]
    change String.ofList (Text.lowerFrom [] digits) = _
    rw [hlower digits fun c hc => List.mem_append_right _ hc]
  · rw [if_pos (hcapital.2 rfl)]
    change String.ofList (Text.lowerFrom [] (['0', 'X'] ++ digits)) = _
    rw [hlower _ fun c hc => hc, List.map_append, String.ofList_append]
    rfl

theorem normalize?_self (h : normalize? s = some address) : normalize? address = some address := by
  obtain ⟨hdigits, rfl⟩ := Address.normalize?_eq_some h
  exact Address.normalize?_ofDigits hdigits

theorem not_capitalMarked_of_normalize? (h : normalize? s = some address) : ¬CapitalMarked address := by
  obtain ⟨-, rfl⟩ := Address.normalize?_eq_some h
  unfold CapitalMarked Address.ofDigits
  rw [String.toList_ofList]
  simp

theorem length_digitsOf (h : normalize? s = some address) : (digitsOf address).length = 40 := by
  obtain ⟨-, digits, -, -, hlength, -, rfl⟩ := Address.exists_of_normalize? h
  rw [digitsOf, String.toList_ofList, String.length_ofList]
  simpa using hlength

/-- Two spellings of an address have the same key exactly when both have a capital marker, or neither. -/
theorem Corpus.addressKey_eq_iff (h : normalize? s = some address) (h' : normalize? s' = some address) :
    addressKey s = addressKey s' ↔ (CapitalMarked s ↔ CapitalMarked s') := by
  have hne : "0x" ++ digitsOf address ≠ digitsOf address := by
    intro heq
    have hlength := congrArg String.length heq
    rw [String.length_append] at hlength
    have : "0x".length = 2 := rfl
    omega
  rw [addressKey_of_normalize? h, addressKey_of_normalize? h']
  by_cases hs : CapitalMarked s <;> by_cases hs' : CapitalMarked s' <;> simp [hs, hs', hne, hne.symm]

theorem ContractRecord.ofCode_of_normalize? (h : normalize? s = some address) (chain code : Json) :
    ofCode chain (.str s) code = ofCode chain (.str address) code := by
  have hread : readAddress (.str s) = .ok address := by
    refine readAddress_eq_ok_iff.2 ⟨s, rfl, Text.hasHalf_eq_false fun c hc => ?_, h⟩
    have hoffset : 128 ≤ Text.halfOffset := by decide
    exact (Address.ascii_of_normalize? h c hc).trans_le hoffset
  have hread' := readAddress_of_isNormal (Address.isNormal_of_normalize? h)
  have hrequired : ∀ v rest, readAddress v = .ok address →
      Checked.required (("chain_id", rest) :: [("address", v), ("bytecode", codeOrEmpty code)]) "address"
        readAddress = .ok address :=
    fun v _ hv => Checked.required_eq_ok_iff.2 ⟨v, rfl, hv⟩
  unfold ofCode
  refine bind_congr fun n => ?_
  unfold ofFields? ofFields
  rw [hrequired _ _ hread, hrequired _ _ hread']
  rfl

namespace Corpus

/-- A corpus of proper rows has nothing under the key of a text with a capital marker. -/
theorem codesAt_marked {rows : List Row} (hproper : ∀ row ∈ rows, Proper row) (chain : Int)
    {digits : String} (hdigits : digits.length = 40) : codesAt rows chain ("0x" ++ digits) = [] := by
  unfold codesAt
  rw [List.map_eq_nil_iff, List.filter_eq_nil_iff]
  intro row hrow heq
  obtain ⟨n, hn, -⟩ := (hproper row hrow).chain
  obtain ⟨listed, haddress, hlength, hall⟩ := (hproper row hrow).address
  have hidentity : identity? row = some (n, addressKey (String.ofList ('0' :: 'x' :: listed))) := by
    unfold identity?
    rw [hn, haddress]
  rw [hidentity, addressKey_ofList hall] at heq
  have hkey := congrArg String.length (Prod.mk.inj (Option.some.inj (beq_iff_eq.1 heq))).2
  rw [String.length_ofList, List.length_map, (Address.map_toLower_eq hall).2.1, hlength,
    String.length_append, hdigits] at hkey
  cases hkey

/-- A corpus has the code of a contract under every spelling of its address but those with a capital
marker. -/
theorem Consistent.codesAt_of_normalize? {rows : List Row} (hrows : Consistent rows) {row : Row}
    (hrow : row ∈ rows) {chain : Int} (hidentity : identity? row = some (chain, digitsOf address))
    (h : normalize? s = some address) :
    Corpus.codesAt rows chain (addressKey s) = if CapitalMarked s then [] else [codeOf row] := by
  rw [addressKey_of_normalize? h]
  split
  · exact codesAt_marked hrows.proper chain (length_digitsOf h)
  · exact hrows.codesAt hrow hidentity

end Corpus

namespace Resolve

variable {α : Type} {out : Outside α} {catalog : List Definition} {chain : String} {chainId : Int}

/-- Under two spellings of an address with one key the same is found. -/
theorem found_iff_of_key (h : normalize? s = some address) (h' : normalize? s' = some address)
    (hkey : addressKey s = addressKey s') (record : ContractRecord) (found : List Match) :
    Found out catalog chain chainId s record found ↔ Found out catalog chain chainId s' record found := by
  have hcode : ∀ code, ContractRecord.ofCode (.str chain) (.str s) code =
      ContractRecord.ofCode (.str chain) (.str s') code := fun code =>
    (ContractRecord.ofCode_of_normalize? h _ code).trans
      (ContractRecord.ofCode_of_normalize? h' _ code).symm
  constructor
  · rintro ⟨⟨code, hcodes, hrecord⟩, hdetected, hseveral⟩
    exact ⟨⟨code, hkey ▸ hcodes, hcode code ▸ hrecord⟩, hdetected, hseveral⟩
  · rintro ⟨⟨code, hcodes, hrecord⟩, hdetected, hseveral⟩
    exact ⟨⟨code, hkey ▸ hcodes, (hcode code).symm ▸ hrecord⟩, hdetected, hseveral⟩

/-- The same text, or another spelling of the same address whose marker is capital as well, or not. -/
inductive Respelled : String → String → Prop where
  | same (s : String) : Respelled s s
  | other {s s' address : String} (h : normalize? s = some address) (h' : normalize? s' = some address)
    (hmarked : CapitalMarked s ↔ CapitalMarked s') : Respelled s s'

theorem matched_of_respelled {addresses addresses' : List String}
    (h : List.Forall₂ Respelled addresses addresses') :
    Matched out catalog chain chainId (addresses.map .str) (addresses'.map .str) := by
  induction h with
  | nil => exact .nil
  | cons hrespelled _ ih =>
    cases hrespelled with
    | same => exact .keep (fun _ _ => Iff.rfl) ih
    | other h h' hmarked =>
      exact .keep (found_iff_of_key h h' ((Corpus.addressKey_eq_iff h h').2 hmarked)) ih

/-- Chains that list the same addresses in other spellings. -/
def RespelledChains : List (String × List String) → List (String × List String) → Prop :=
  List.Forall₂ fun e e' => e'.1 = e.1 ∧ List.Forall₂ Respelled e.2 e'.2

theorem matched_of_respelledChains {nodes : List (String × Json)}
    {listed listed' : List (String × List String)}
    (h : RespelledChains listed listed') :
    List.Forall₂ (MatchedEntry out catalog nodes) (listing listed) (listing listed') ∧
      listedCount listed' = listedCount listed := by
  induction h with
  | nil => exact ⟨.nil, rfl⟩
  | @cons e e' rest rest' he _ ih =>
    obtain ⟨hchain, haddresses⟩ := he
    refine ⟨.cons ⟨hchain, ⟨Option.some_ne_none _, Option.some_ne_none _⟩, fun _ _ =>
      matched_of_respelled haddresses⟩ ih.1, ?_⟩
    have hlength : e'.2.length = e.2.length := haddresses.length_eq.symm
    have hrest := ih.2
    simp only [listedCount, List.map_cons, List.sum_cons] at hrest ⊢
    rw [hlength, hrest]

variable [Seconds α]

theorem go_resolveCandidate_of_missing (hundisturbed : ∀ n, out.disturbance n = none)
    (hcodes : out.codes chainId (addressKey s) = []) (v : Visit α) :
    (resolveCandidate out chain chainId (.str s)).go v =
      (Visit.working (skipWith .warning
        s!"No contract found for address {s} on chain {chain}, skipping")).go
        (lookedUp chainId s v) := by
  unfold resolveCandidate
  rw [Act.go_bind, go_lookup hundisturbed, hcodes]
  rfl

/-- The key of an accepted text has the forty digits of its normal form, and a marker in front exactly when
its own is capital. So in a corpus of distinct contracts a contract is found under every spelling of its
address but those with a capital marker; where the corpus answers their keys, with nothing, they are
skipped. Of the other spellings any may stand for any other without a difference to the run but in the
texts themselves. -/
theorem found_but_for_capital_marker (out : Outside α) (hundisturbed : ∀ n, out.disturbance n = none) :
    (∀ s address, normalize? s = some address →
      addressKey s = if CapitalMarked s then "0x" ++ digitsOf address else digitsOf address) ∧
    (∀ s s' address, normalize? s = some address → normalize? s' = some address →
      (addressKey s = addressKey s' ↔ (CapitalMarked s ↔ CapitalMarked s'))) ∧
    (∀ rows, Corpus.Consistent rows → out.codes = Corpus.codesAt rows → ∀ row ∈ rows,
      ∀ chainId address, Corpus.identity? row = some (chainId, digitsOf address) →
        ∀ s, normalize? s = some address →
          out.codes chainId (addressKey s) = (if CapitalMarked s then [] else [Corpus.codeOf row]) ∧
          (CapitalMarked s → ∀ chain v, (resolveCandidate out chain chainId (.str s)).go v =
            (Visit.working (skipWith .warning
              s!"No contract found for address {s} on chain {chain}, skipping")).go
                (lookedUp chainId s v)) ∧
          (¬CapitalMarked s → ∀ catalog chain record found,
            Found out catalog chain chainId s record found ↔
              Found out catalog chain chainId address record found)) ∧
    (Calm out → ∀ catalog folder listed listed' nodes rounds timeout interval journal,
      journal.stopped = false → RespelledChains listed listed' → listedCount listed < 2 ^ 255 →
        ∃ result last last',
          (run out).go (ofListed catalog folder listed nodes rounds timeout interval journal) =
            (result, last) ∧
          (run out).go (ofListed catalog folder listed' nodes rounds timeout interval journal) =
            (result, last') ∧
          last.bare = last'.bare) := by
  refine ⟨fun s address => Corpus.addressKey_of_normalize?, fun s s' address => Corpus.addressKey_eq_iff,
    fun rows hrows hcorpus row hrow chainId address hidentity s h => ?_,
    fun hcalm catalog folder listed listed' nodes rounds timeout interval journal hstopped
      hrespelled hfew => ?_⟩
  · have hcodes : out.codes chainId (addressKey s) =
        if CapitalMarked s then [] else [Corpus.codeOf row] := by
      rw [hcorpus]
      exact hrows.codesAt_of_normalize? hrow hidentity h
    refine ⟨hcodes, fun hmarked chain v => ?_, fun hmarked catalog chain => ?_⟩
    · rw [if_pos hmarked] at hcodes
      exact go_resolveCandidate_of_missing hundisturbed hcodes v
    · have hnormal := normalize?_self h
      refine found_iff_of_key h hnormal ((Corpus.addressKey_eq_iff h hnormal).2 ?_)
      exact ⟨fun h => absurd h hmarked, fun h' => absurd h' (not_capitalMarked_of_normalize? h)⟩
  · obtain ⟨hmatched, hcount⟩ := matched_of_respelledChains hrespelled
    exact go_run_matched hcalm catalog folder nodes rounds timeout interval hstopped hmatched
      (by rwa [itemCount_listing]) (by rwa [itemCount_listing, hcount])

/-- A corpus of one contract, whose code has two patterns. -/
def contractOfAs : Row :=
  [("chain_id", .int 1), ("address", .str (String.ofList ('0' :: 'x' :: List.replicate 40 'a'))),
    ("code", .str "0x635c60da1b6359659e90f4")]

def spelledWith (marker : List Char) (digit : Char) : String :=
  String.ofList (marker ++ List.replicate 40 digit)

theorem found_but_for_capital_marker_of_one :
    let out : Outside Rat := { oneOfFive with codes := Corpus.codesAt [contractOfAs] }
    let start (address : String) : Resolve Rat :=
      ofListed Catalog.builtIn ⟨["out"], "out"⟩ [("1", [address])] [("1", .str "http://rpc")] 1 30 0
        { clock := 0 }
    (∀ n, out.disturbance n = none) ∧
      addressKey (spelledWith [] 'A') = addressKey (spelledWith ['0', 'x'] 'a') ∧
      out.codes 1 (addressKey (spelledWith ['0', 'x'] 'A')) = [Corpus.codeOf contractOfAs] ∧
      out.codes 1 (addressKey (spelledWith ['0', 'X'] 'a')) = [] ∧
      ∃ result last last', (run out).go (start (spelledWith ['0', 'x'] 'a')) = (result, last) ∧
        (run out).go (start (spelledWith [] 'A')) = (result, last') ∧
        last.bare = last'.bare ∧ last.task.tally.processed = 1 := by
  intro out start
  have hprocessed : ((run out).go (start (spelledWith ['0', 'x'] 'a'))).2.task.tally.processed = 1 := by
    decide +kernel
  have hrows : Corpus.Consistent [contractOfAs] := by
    refine ⟨fun row hrow => ?_, List.nodup_singleton _⟩
    obtain rfl := List.mem_singleton.1 hrow
    exact ⟨⟨1, rfl, by decide⟩, List.replicate 40 'a', rfl, rfl, by decide⟩
  have hnormal : ∀ marker ∈ [[], ['0', 'x'], ['0', 'X']], ∀ digit ∈ ['a', 'A'],
      normalize? (spelledWith marker digit) = some (spelledWith ['0', 'x'] 'a') := by
    simp only [List.forall_mem_cons, List.not_mem_nil, false_imp_iff, implies_true, and_true]
    decide +kernel
  have hcalm : Calm out := ⟨fun _ => rfl, fun _ => rfl, fun _ => rfl⟩
  obtain ⟨-, hkeys, hcodes, hruns⟩ := found_but_for_capital_marker out fun _ => rfl
  have hlookup := fun marker hmarker digit hdigit =>
    (hcodes [contractOfAs] hrows rfl contractOfAs (List.mem_singleton_self _) 1 _ (by decide +kernel)
      (spelledWith marker digit) (hnormal marker hmarker digit hdigit)).1
  have hrespelled : RespelledChains [("1", [spelledWith ['0', 'x'] 'a'])] [("1", [spelledWith [] 'A'])] :=
    .cons ⟨rfl, .cons (.other (hnormal _ (by simp) _ (by simp)) (hnormal _ (by simp) _ (by simp))
      (by decide +kernel)) .nil⟩ .nil
  obtain ⟨result, last, last', hrun, hrun', hbare⟩ := hruns hcalm Catalog.builtIn ⟨["out"], "out"⟩ _ _
    [("1", .str "http://rpc")] 1 30 0 { clock := 0 } rfl hrespelled (by decide)
  refine ⟨fun _ => rfl, ?_, ?_, ?_, result, last, last', hrun, hrun', hbare, ?_⟩
  · exact (hkeys _ _ _ (hnormal _ (by simp) _ (by simp)) (hnormal _ (by simp) _ (by simp))).2
      (by decide +kernel)
  · exact (hlookup ['0', 'x'] (by simp) 'A' (by simp)).trans (if_neg (by decide +kernel))
  · exact (hlookup ['0', 'X'] (by simp) 'a' (by simp)).trans (if_pos (by decide +kernel))
  · change (run out).go (start _) = _ at hrun
    rw [hrun] at hprocessed
    exact hprocessed

end Resolve

end ProxyCensus
