import ProxyCensus.Proofs.Detection.Exact
import ProxyCensus.Proofs.Job.ResolveCandidates

/-!
# What the nodes decide

Main statements: with no more rounds than there are pauses all analyses return exactly when no reply
nests too deep, whatever the nodes reply; the analysis of every contract with several patterns fails when
all replies nest too deep; and it fails with more rounds than there are pauses, when the nodes always ask
to slow down.
-/

namespace ProxyCensus

namespace Resolve

/-- Since the messages `before` all analyses have returned exactly when no reply nests too deep, and one
does only if there are rounds to ask in. -/
structure Spared {α : Type} (out : Outside α) (rounds : Int) (before : List Post)
    (returned : List Bool) (posts : List Post) : Prop where
  longer : before <:+ posts
  asks : out.Sinks before posts → 0 < rounds
  all_iff : (∀ r ∈ returned, r = true) ↔ ¬ out.Sinks before posts

theorem spared_nil {α : Type} (out : Outside α) (rounds : Int) (before : List Post) :
    Spared out rounds before [] before :=
  ⟨List.suffix_rfl, fun h => absurd h (out.not_sinks_self before),
    iff_of_true (fun _ h => absurd h List.not_mem_nil) (out.not_sinks_self before)⟩

/-- With no more rounds than there are pauses an analysis fails only for a reply that nests too deep. -/
theorem decides_of_paced {α : Type} [Seconds α] {out : Outside α} {rounds : Int}
    (hplain : ∀ sent p, (out.reply sent p).delivery.Plain)
    (hpaced : ∀ round ≤ rounds.toNat, Pacing.Paced α round) (catalog : List Definition)
    (before : List Post) : Decides out catalog rounds (Spared out rounds before) := by
  intro l urls hends hurls hrounds record found _ _ returned h asked
  have hfails := Analysis.resolve_fails out (some record.chainId) record found
  have hsteady : l.Steady out := ⟨hplain, ⟨urls, hends, hurls⟩, hrounds ▸ hpaced⟩
  have hlonger : l.journal.posts <:+ asked.2.journal.posts := hfails.longer l
  have hreturns : asked.1.isOk = true ↔ ¬ out.Sinks l.journal.posts asked.2.journal.posts := by
    refine Iff.trans ?_ (hfails.returns_iff hsteady)
    change asked.1.isOk = true ↔ ∃ c, asked.1 = .ok c
    cases asked.1 with
    | ok c => exact iff_of_true rfl ⟨c, rfl⟩
    | error f => exact iff_of_false Bool.false_ne_true fun ⟨c, hc⟩ => by cases hc
  have hsplit : out.Sinks before asked.2.journal.posts ↔
      out.Sinks before l.journal.posts ∨ out.Sinks l.journal.posts asked.2.journal.posts :=
    Outside.sinks_trans_iff h.longer hlonger
  refine ⟨h.longer.trans hlonger, fun hsinks => ?_, ?_⟩
  · rcases hsplit.1 hsinks with hbefore | hasked
    · exact h.asks hbefore
    · exact hrounds ▸ (hfails.sunk l hsteady hasked).1
  · rw [hsplit, not_or, ← h.all_iff, ← hreturns, List.forall_mem_append]
    exact and_congr_right' List.forall_mem_singleton

end Resolve

/-- A match that is resolved by a request: every one but that of a clone. -/
def Match.Asks (m : Match) : Prop :=
  m.pattern ≠ .fixed ∧ ∃ i, m = Detection.entry m.pattern i

theorem Detection.asks_of_inText {text : String} {found : List Match}
    (h : inText Catalog.builtIn text = .ok found) {m : Match} (hm : m ∈ found)
    (hfixed : m.pattern ≠ .fixed) : m.Asks := by
  obtain ⟨code, -, hcode⟩ := bind_eq_ok_iff.1 h
  rcases (mem_inCode_builtIn_iff hcode m).1 hm with ⟨target, -, rfl⟩ | ⟨-, -, i, -, heq⟩
  · exact absurd rfl hfixed
  · exact ⟨hfixed, i, heq⟩

/-- A computation has failed for a reason that a resolution does not handle. -/
def Resolution.Lost {β : Type} (r : Except Failure β) : Prop :=
  ∃ f, isOwn f = false ∧ r = .error f

/-- A client all of whose requests fail for reasons that a resolution does not handle. -/
def Line.Hopeless {α : Type} [Seconds α] (out : Outside α) (l : Line α) : Prop :=
  ∀ l', setting l' = setting l → ∀ request, Resolution.Lost ((Line.ask out request).go l').1

variable {α β γ : Type} [Seconds α] {out : Outside α} {l l' : Line α}

theorem Line.Hopeless.of_setting (h : l.Hopeless out) (hsetting : setting l' = setting l) :
    l'.Hopeless out :=
  fun l'' hl'' => h l'' (hl''.trans hsetting)

theorem Line.Hopeless.ask (h : l.Hopeless out) (request : Request) :
    Resolution.Lost ((Line.ask out request).go l).1 :=
  h l rfl request

/-- A client is hopeless when its requests fail however often it has asked before. -/
theorem Line.hopeless_of_ask {urls : List Json} (hends : l.client.endpoints = .list urls)
    (h : ∀ l' : Line α, l'.client.endpoints = .list urls → l'.client.rounds = l.client.rounds →
      ∀ request, Resolution.Lost ((Line.ask out request).go l').1) : l.Hopeless out := by
  intro l' hsetting
  have hurls : l'.client.endpoints = l.client.endpoints := congrArg Prod.fst hsetting
  exact h l' (hurls.trans hends) (rounds_of_setting hsetting)

theorem Delivery.Busy.plain {d : Delivery} (h : d.Busy) : d.Plain := by
  cases h with
  | intro body => exact .http 429 body

theorem Delivery.Busy.undecided {d : Delivery} (h : d.Busy) : d.Undecided := by
  cases h with
  | intro body =>
    constructor
    · rintro v ⟨⟩
    · rintro ⟨⟩
    · rintro reason ⟨⟩
    · rintro reason ⟨⟩

theorem Delivery.TooDeep.plain {d : Delivery} {reason : String} (h : d.TooDeep reason) : d.Plain := by
  cases h with
  | intro reason => exact .http 200 _

/-- A request fails for the lack of a pause when the nodes always ask to slow down, in more rounds than
there are pauses. -/
theorem Line.go_ask_of_busy (hbusy : ∀ sent p, (out.reply sent p).delivery.Busy) {urls : List Json}
    (hends : l.client.endpoints = .list urls) (hurls : urls ≠ [])
    (hunpaced : ∃ round, 0 < round ∧ round ≤ l.client.rounds.toNat ∧ ¬ Pacing.Paced α round)
    (request : Request) : ((Line.ask out request).go l).1 = .error .largeInteger := by
  obtain ⟨round, hpos, hle, hunpaced⟩ := hunpaced
  let t : Trial α := ⟨out, request, urls, l.client.rounds, l⟩
  have hall : ∀ i, (t.delivery i).Busy := fun i => hbusy _ _
  obtain ⟨n, hdecided⟩ : ∃ n, t.Decided (Pacing.Paced α) n ((Line.ask out request).go l).1
      ((Line.ask out request).go l).2 :=
    Trial.ask_decided (t := t) (fun sent p => (hbusy sent p).plain) hurls hends rfl
  have hpositive : 0 < urls.length := List.length_pos_iff.2 hurls
  generalize ((Line.ask out request).go l).1 = r at hdecided
  cases hdecided.ends with
  | answered hi hanswer => exact absurd hanswer ((hall _).undecided.answers _)
  | failed hi hfails =>
    cases hfails with
    | refused h => exact absurd h (hall _).undecided.refuses
    | barred h => exact absurd h ((hall _).undecided.barred _)
    | tooDeep h => exact absurd h ((hall _).undecided.tooDeep _)
  | stalled hi hu hdue hp => rfl
  | exhausted hpasses =>
    have hbefore : round - 1 < l.client.rounds.toNat := by omega
    have hi : (round - 1) * urls.length < t.limit :=
      Nat.mul_lt_mul_of_pos_right hbefore hpositive
    have hround : t.round ((round - 1) * urls.length) = round := by
      change (round - 1) * urls.length / urls.length + 1 = round
      rw [Nat.mul_div_cancel _ hpositive]
      omega
    exact absurd (hround ▸ (hpasses _ hi).2 (.inl (hall _))) hunpaced

/-- A request fails with the first reply when all replies nest too deep. -/
theorem Line.go_ask_of_tooDeep (hdeep : ∀ sent p, ∃ reason, (out.reply sent p).delivery.TooDeep reason)
    {urls : List Json} (hends : l.client.endpoints = .list urls) (hurls : urls ≠ [])
    (hrounds : 0 < l.client.rounds) (request : Request) :
    ∃ reason, ((Line.ask out request).go l).1 = .error (.recursion reason) := by
  let t : Trial α := ⟨out, request, urls, l.client.rounds, l⟩
  obtain ⟨n, hdecided⟩ : ∃ n, t.Decided (Pacing.Paced α) n ((Line.ask out request).go l).1
      ((Line.ask out request).go l).2 :=
    Trial.ask_decided (t := t) (fun sent p => (hdeep sent p).choose_spec.plain) hurls hends rfl
  obtain ⟨reason, hfirst⟩ : ∃ reason, (t.delivery 0).TooDeep reason := hdeep _ _
  have hpos : 0 < t.limit :=
    Nat.mul_pos (Int.lt_toNat.2 hrounds) (List.length_pos_iff.2 hurls)
  have hsent : 0 < n := by
    generalize ((Line.ask out request).go l).1 = r at hdecided
    cases hdecided.ends with
    | exhausted => exact hpos
    | _ => exact Nat.succ_pos _
  exact ⟨reason, (hdecided.of_tooDeep hsent hfirst).2⟩

theorem Line.hopeless_of_busy (hbusy : ∀ sent p, (out.reply sent p).delivery.Busy) {urls : List Json}
    (hends : l.client.endpoints = .list urls) (hurls : urls ≠ [])
    (hunpaced : ∃ round, 0 < round ∧ round ≤ l.client.rounds.toNat ∧ ¬ Pacing.Paced α round) :
    l.Hopeless out :=
  hopeless_of_ask hends fun _ hends' hrounds request =>
    ⟨_, rfl, go_ask_of_busy hbusy hends' hurls (hrounds ▸ hunpaced) request⟩

theorem Line.hopeless_of_tooDeep
    (hdeep : ∀ sent p, ∃ reason, (out.reply sent p).delivery.TooDeep reason) {urls : List Json}
    (hends : l.client.endpoints = .list urls) (hurls : urls ≠ []) (hpos : 0 < l.client.rounds) :
    l.Hopeless out :=
  hopeless_of_ask hends fun _ hends' hrounds request =>
    (go_ask_of_tooDeep hdeep hends' hurls (hrounds ▸ hpos) request).elim fun _ h => ⟨_, rfl, h⟩

namespace Resolution

omit [Seconds α] in
theorem Lost.bind {x : Act (Line α) β} {f : β → Act (Line α) γ} (h : Lost (x.go l).1) :
    Lost ((x >>= f).go l).1 := by
  obtain ⟨g, hg, hx⟩ := h
  rw [Act.go_bind_of_error hx]
  exact ⟨g, hg, rfl⟩

theorem addresses_of_asks (h : l.Hopeless out) {m : Match} (hm : m.Asks) (address : String) :
    Lost ((addresses out m address).go l).1 := by
  have hslot : ∀ {m : Match} {slot : String}, m.slot = some slot →
      Lost ((fromSlot out m address).go l).1 := by
    intro m slot hslot
    unfold fromSlot
    rw [hslot]
    exact (h.ask _).bind
  have hbeacon : ∀ (m : Match) (accessor : Option String),
      Lost ((fromBeacon out m address accessor).go l).1 := by
    intro m accessor
    apply Lost.bind
    unfold findBeacon
    cases m.slot with
    | none => exact (h.ask _).bind
    | some slot => exact (h.ask _).bind
  obtain ⟨hfixed, i, hi⟩ := hm
  rw [hi]
  cases hp : m.pattern with
  | fixed => exact absurd hp hfixed
  | eip1967 => exact (hslot rfl).bind
  | zeppelinOS => exact (hslot rfl).bind
  | proxiable => exact (hslot rfl).bind
  | gnosisSafe => exact (hslot rfl).bind
  | sequenceWallet => exact (hslot rfl).bind
  | legacyUpgradeable => exact ((h.ask _).bind).bind
  | eip1967Beacon =>
    have hmethod : (Catalog.row (Detection.entry .eip1967Beacon i).pattern).method = .beacon := by
      rw [Detection.pattern_entry]
      rfl
    unfold addresses
    dsimp only
    rw [hmethod]
    exact (hbeacon _ _).bind
  | diamond => exact (h.ask _).bind

/-- A hopeless client fails to resolve a match that is resolved by a request. -/
theorem resolve_of_asks (h : l.Hopeless out) {m : Match} (hm : m.Asks) (chain : Option Int)
    (address : String) : Lost ((resolve out chain m address).go l).1 := by
  obtain ⟨f, hother, hf⟩ := addresses_of_asks h hm address
  unfold resolve
  dsimp only
  rw [Act.go_bind, Act.go_outcome, hf]
  dsimp only
  rw [if_neg (by simp [hother])]
  exact ⟨f, hother, rfl⟩

theorem resolve_of_fixed {m : Match} (hm : m.pattern = .fixed) (chain : Option Int)
    (address : String) : ∃ found, ((resolve out chain m address).go l).1 = .ok found := by
  have hmethod : (Catalog.row m.pattern).method = .bytecode := by
    rw [hm]
    rfl
  unfold resolve addresses
  dsimp only
  rw [hmethod, Act.go_bind, Act.go_outcome]
  dsimp only [Act.go_pure]
  cases (fromCode m).toList with
  | nil => exact ⟨_, rfl⟩
  | cons a rest => exact ⟨_, rfl⟩

end Resolution

namespace Analysis

theorem resolveEach_of_asks (chain : Option Int) (found : List Match) :
    ∀ {l : Line α} (c : Classification), l.Hopeless out →
      (∀ m ∈ found, m.pattern ≠ .fixed → m.Asks) → (∃ m ∈ found, m.pattern ≠ .fixed) →
      Resolution.Lost ((resolveEach out chain c found).go l).1 := by
  induction found with
  | nil =>
    rintro l c - - ⟨m, hm, -⟩
    cases hm
  | cons m rest ih =>
    intro l c h hasks hsome
    unfold resolveEach
    by_cases hm : m.pattern = .fixed
    · obtain ⟨found, hfound⟩ := @Resolution.resolve_of_fixed α _ out l m hm chain c.address
      have hkept := (Resolution.resolve_fails out chain m c.address).keeps l
      rw [Act.go_bind_of_ok hfound]
      refine ih _ (h.of_setting hkept) (fun m' hm' => hasks m' (List.mem_cons_of_mem _ hm')) ?_
      obtain ⟨m', hm', hne⟩ := hsome
      rcases List.mem_cons.1 hm' with rfl | hm'
      · exact absurd hm hne
      · exact ⟨m', hm', hne⟩
    · exact (Resolution.resolve_of_asks h (hasks m List.mem_cons_self hm) chain c.address).bind

theorem exists_ne_fixed {found : List Match}
    (hrank : found.Pairwise fun a b => a.pattern.rank < b.pattern.rank) (hseveral : 1 < found.length) :
    ∃ m ∈ found, m.pattern ≠ .fixed := by
  match found, hrank, hseveral with
  | a :: b :: rest, hrank, _ =>
    have hlt := (List.pairwise_cons.1 hrank).1 b List.mem_cons_self
    refine ⟨b, List.mem_cons_of_mem _ List.mem_cons_self, fun hb => ?_⟩
    rw [hb] at hlt
    exact absurd hlt (Nat.not_lt_zero _)

theorem resolve_of_hopeless (h : l.Hopeless out) (chain : Option Int) {record : ContractRecord}
    {found : List Match} (hfound : Detection.inText Catalog.builtIn record.bytecode = .ok found)
    (hseveral : 1 < found.length) :
    Resolution.Lost ((resolve out chain record found).go l).1 := by
  have hasks : ∀ m ∈ found, m.pattern ≠ .fixed → m.Asks :=
    fun m hm hne => Detection.asks_of_inText hfound hm hne
  unfold resolve
  dsimp only
  split
  · rename_i hkind
    have hnil := List.map_eq_nil_iff.1 (Kind.ofPatterns_eq_nonProxy_iff.1 hkind)
    rw [hnil] at hseveral
    exact absurd hseveral (by decide)
  · rename_i hkind
    obtain ⟨m, hm, hdiamond⟩ := List.mem_map.1 (Kind.ofPatterns_eq_diamond_iff.1 hkind)
    split
    · rename_i m hfind
      have hne : m.pattern ≠ .fixed := by
        rw [show m.pattern = .diamond by simpa using List.find?_some hfind]
        decide
      exact (Resolution.resolve_of_asks h (hasks m (List.mem_of_find?_eq_some hfind) hne) chain
        record.address).bind
    · rename_i hnone
      exact absurd (beq_iff_eq.2 hdiamond) (List.find?_eq_none.1 hnone m hm)
  · exact (resolveEach_of_asks chain found _ h hasks
      (exists_ne_fixed (Detection.pairwise_rank_inText hfound) hseveral)).bind

end Analysis

namespace Resolve

/-- No analysis has returned. -/
def AllFailed (returned : List Bool) (_ : List Post) : Prop :=
  ∀ r ∈ returned, r = false

/-- Every analysis fails on clients that are hopeless. -/
theorem decides_of_hopeless {rounds : Int}
    (h : ∀ (l : Line α) (urls : List Json), l.client.endpoints = .list urls → urls ≠ [] →
      l.client.rounds = rounds → l.Hopeless out) : Decides out Catalog.builtIn rounds AllFailed := by
  intro l urls hends hurls hrounds record found hfound hseveral returned hfailed asked
  obtain ⟨f, -, hf⟩ := Analysis.resolve_of_hopeless (h l urls hends hurls hrounds) _ hfound hseveral
  have hasked : asked.1 = .error f := hf
  refine List.forall_mem_append.2 ⟨hfailed, List.forall_mem_singleton.2 ?_⟩
  rw [hasked]
  rfl

/-- With more rounds than there are pauses every analysis fails, when the nodes always ask to slow
down. -/
theorem decides_of_unpaced {rounds : Int} (hbusy : ∀ sent p, (out.reply sent p).delivery.Busy)
    (hunpaced : ∃ round, 0 < round ∧ round ≤ rounds.toNat ∧ ¬ Pacing.Paced α round) :
    Decides out Catalog.builtIn rounds AllFailed :=
  decides_of_hopeless fun _ _ hends hurls hrounds =>
    Line.hopeless_of_busy hbusy hends hurls (hrounds ▸ hunpaced)

/-- In any number of rounds every analysis fails, when all replies nest too deep. -/
theorem decides_of_tooDeep {rounds : Int} (hpos : 0 < rounds)
    (hdeep : ∀ sent p, ∃ reason, (out.reply sent p).delivery.TooDeep reason) :
    Decides out Catalog.builtIn rounds AllFailed :=
  decides_of_hopeless fun _ _ hends hurls hrounds =>
    Line.hopeless_of_tooDeep hdeep hends hurls (hrounds ▸ hpos)

end Resolve

end ProxyCensus
