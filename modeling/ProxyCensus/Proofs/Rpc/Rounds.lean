import ProxyCensus.Proofs.Rpc.Sends

/-!
# Rounds of a request

Which messages a request sends and how it ends. The messages go to the addresses in their order,
round after round, and the first reply that answers or fails the request ends it; when none does, it
fails after the last round. Main statements: this holds for every request of a sequence, with one
exception that is stated exactly: a pause that is due in a round after the first 1024 has no double, and
the request fails for the lack of it. A body that nests too deep fails its request as nothing else does.
-/

namespace ProxyCensus

/-- A request with the addresses and the number of rounds of its client, and the line on which it
starts. -/
structure Trial (α : Type) where
  out : Outside α
  request : Request
  urls : List Json
  rounds : Int
  start : Line α

namespace Trial

variable {α : Type} (t : Trial α)

def limit : Nat := t.rounds.toNat * t.urls.length

/-- The round of message number `i`, counted from one; messages are counted from zero. -/
def round (i : Nat) : Nat := i / t.urls.length + 1

/-- Where message number `i` goes. -/
def url (i : Nat) : Json := t.urls.getD (i % t.urls.length) .null

def post (i : Nat) : Post := ⟨t.url i, t.request, t.start.client.lastId + 1 + i⟩

/-- The first `n` messages, the oldest first. -/
def posts (n : Nat) : List Post := (List.range n).map t.post

def delivery (i : Nat) : Delivery :=
  (t.out.reply ((t.posts i).reverse ++ t.start.journal.posts) (t.post i)).delivery

def verdict (i : Nat) : Rpc.Verdict :=
  Rpc.judge t.request.method (t.url i).display (t.delivery i)

def cause? : Nat → Option Failure
  | 0 => none
  | i + 1 => (t.verdict i).cause? (t.url i).display

/-- The reply to message number `i` fails the request. -/
def FailsAt (i : Nat) (f : Failure) : Prop :=
  Rpc.Fails t.request.method (t.url i).display (t.delivery i) f

/-- A pause is due after message number `i` when its reply decides nothing: the node has asked to
slow down, or the message ended a round that is not the last one. -/
def Due (i : Nat) : Prop :=
  (t.delivery i).Busy ∨ ((i + 1) % t.urls.length = 0 ∧ i + 1 < t.limit)

/-- The request goes on after message number `i`. -/
def Passes (paced : Nat → Prop) (i : Nat) : Prop :=
  (t.delivery i).Undecided ∧ (t.Due i → paced (t.round i))

/-- How the request ends once it has sent `n` messages. -/
inductive Ends (paced : Nat → Prop) : Nat → Except Failure Json → Prop
  | answered {i : Nat} {v : Json} (hi : i < t.limit) (h : (t.delivery i).Answers v) :
      Ends paced (i + 1) (.ok v)
  | failed {i : Nat} {f : Failure} (hi : i < t.limit) (h : t.FailsAt i f) : Ends paced (i + 1) (.error f)
  | stalled {i : Nat} (hi : i < t.limit) (h : (t.delivery i).Undecided) (hdue : t.Due i)
      (hp : ¬ paced (t.round i)) : Ends paced (i + 1) (.error .largeInteger)
  | exhausted (h : ∀ i < t.limit, t.Passes paced i) : Ends paced t.limit
      (.error (Line.exhausted t.request.method t.rounds (t.cause? t.limit)))

/-- The request has sent `n` messages, the first ones that it may send; it has gone on after all but
the last of them, and has ended there. -/
structure Decided (paced : Nat → Prop) (n : Nat) (r : Except Failure Json) (l : Line α) :
    Prop where
  sends : t.start.Sends (t.posts n) l
  passes : ∀ i, i + 1 < n → t.Passes paced i
  ends : t.Ends paced n r

variable {t}

theorem posts_succ (n : Nat) : t.posts (n + 1) = t.posts n ++ [t.post n] := by
  simp [posts, List.range_succ]

theorem length_posts (n : Nat) : (t.posts n).length = n := by
  simp [posts]

theorem url_of_lt {a u : Nat} {url : Json} (hu : t.urls[u]? = some url) :
    t.url (a * t.urls.length + u) = url := by
  have hlt : u < t.urls.length := (List.getElem?_eq_some_iff.1 hu).1
  rw [Trial.url, Nat.mul_comm, Nat.mul_add_mod, Nat.mod_eq_of_lt hlt, List.getD_eq_getElem?_getD, hu]
  rfl

theorem round_of_lt {a u : Nat} (hu : u < t.urls.length) :
    t.round (a * t.urls.length + u) = a + 1 := by
  rw [round, Nat.mul_comm, Nat.mul_add_div (by omega), Nat.div_eq_of_lt hu, Nat.add_zero]

/-- The messages of a round but the last one end no round. -/
theorem due_of_lt {a u : Nat} (hu : u + 1 < t.urls.length) :
    t.Due (a * t.urls.length + u) ↔ (t.delivery (a * t.urls.length + u)).Busy := by
  have : (a * t.urls.length + u + 1) % t.urls.length = u + 1 := by
    rw [Nat.mul_comm, Nat.add_assoc, Nat.mul_add_mod, Nat.mod_eq_of_lt hu]
  simp [Due, this]

theorem round_of_last {a i : Nat} (hi : i + 1 = (a + 1) * t.urls.length) (hurls : t.urls ≠ []) :
    t.round i = a + 1 ∧ (i + 1) % t.urls.length = 0 := by
  have hpos : 0 < t.urls.length := List.length_pos_iff.2 hurls
  have hend : (a + 1) * t.urls.length = a * t.urls.length + t.urls.length := by
    rw [Nat.add_mul, Nat.one_mul]
  constructor
  · rw [show i = a * t.urls.length + (t.urls.length - 1) by omega]
    exact round_of_lt (by omega)
  · rw [hi, Nat.mul_mod_left]

variable [Seconds α]

theorem tryUrl_next (hout : ∀ sent p, (t.out.reply sent p).delivery.Plain) {a u : Nat} {url : Json}
    (hu : t.urls[u]? = some url) {l : Line α}
    (hl : t.start.Sends (t.posts (a * t.urls.length + u)) l) :
    let n := a * t.urls.length + u
    let go := (Line.tryUrl t.out (pure ()) t.request (a + 1) url).go l
    t.start.Sends (t.posts (n + 1)) go.2 ∧
      Line.Tried α url.display t.request.method (a + 1) (t.delivery n) go.1 := by
  intro n go
  have hpost : t.post n = ⟨url, t.request, l.client.lastId + 1⟩ := by
    rw [post, url_of_lt hu, hl.lastId, length_posts, Nat.add_right_comm]
  obtain ⟨hs, ht⟩ := Line.tryUrl_tried t.out hout (Line.quiet_pure ()) (fun _ => rfl) t.request
    (a + 1) url l
  rw [← hpost] at hs ht
  constructor
  · rw [posts_succ]
    exact hl.trans hs
  · rw [hl.posts] at ht
    exact ht

/-- The request goes on within a round after message number `i`. -/
def Goes (t : Trial α) (i : Nat) : Prop :=
  (t.delivery i).Undecided ∧ ((t.delivery i).Busy → Pacing.Paced α (t.round i))

/-- How a round ends early, with message number `i`. -/
inductive Breaks (t : Trial α) (i : Nat) : Except Failure (Json ⊕ Option Failure) → Prop
  | answered {v : Json} (h : (t.delivery i).Answers v) : Breaks t i (.ok (.inl v))
  | failed {f : Failure} (h : t.FailsAt i f) : Breaks t i (.error f)
  | stalled (h : (t.delivery i).Undecided) (hb : (t.delivery i).Busy)
      (hp : ¬ Pacing.Paced α (t.round i)) : Breaks t i (.error .largeInteger)

/-- After one attempt the request goes on within the round, for the reason that the reply leaves, or the
round ends early. -/
theorem tryUrl_goes_or_breaks (hout : ∀ sent p, (t.out.reply sent p).delivery.Plain) {a u : Nat}
    {url : Json} (hu : t.urls[u]? = some url) {l : Line α}
    (hl : t.start.Sends (t.posts (a * t.urls.length + u)) l) :
    let n := a * t.urls.length + u
    let r := ((Line.tryUrl t.out (pure ()) t.request (a + 1) url).go l).1
    (∃ f, r = .ok (.inr f) ∧ t.Goes n ∧ t.cause? (n + 1) = some f) ∨
      ∃ early : Except Failure Json, r = early.map .inl ∧ t.Breaks n (early.map .inl) := by
  intro n r
  have hround : t.round n = a + 1 := round_of_lt (List.getElem?_eq_some_iff.1 hu).1
  have hverdict : t.verdict n = Rpc.judge t.request.method url.display (t.delivery n) := by
    rw [verdict, url_of_lt hu]
  have htried : Line.Tried α url.display t.request.method (a + 1) (t.delivery n) r :=
    (tryUrl_next hout hu hl).2
  generalize r = r at htried
  cases htried with
  | answered h => exact .inr ⟨.ok _, rfl, .answered h⟩
  | failed h => exact .inr ⟨.error _, rfl, .failed (by rwa [FailsAt, url_of_lt hu])⟩
  | stalled h hb hp => exact .inr ⟨.error _, rfl, .stalled h hb (hround.symm ▸ hp)⟩
  | @undecided f h hp hf =>
    refine .inl ⟨f, rfl, ⟨h, hround.symm ▸ hp⟩, ?_⟩
    rw [cause?, hverdict, url_of_lt hu]
    exact hf

/-- Whoever goes through the addresses from one of them on reaches the end of the round, or the round
ends early. -/
theorem tryUrls_round (hout : ∀ sent p, (t.out.reply sent p).delivery.Plain) (a : Nat)
    (rest : List Json) :
    ∀ (u : Nat) (l : Line α), t.urls.drop u = rest → u ≤ t.urls.length →
      t.start.Sends (t.posts (a * t.urls.length + u)) l →
      let first := a * t.urls.length + u
      let after := a * t.urls.length + t.urls.length
      let go := (Line.tryUrls t.out (pure ()) t.request (a + 1) (t.cause? first) rest).go l
      (t.start.Sends (t.posts after) go.2 ∧ go.1 = .ok (.inr (t.cause? after)) ∧
        ∀ i, first ≤ i → i < after → t.Goes i) ∨
      ∃ i, i < after ∧ t.start.Sends (t.posts (i + 1)) go.2 ∧ t.Breaks i go.1 ∧
        ∀ j, first ≤ j → j < i → t.Goes j := by
  induction rest with
  | nil =>
    intro u l hrest hu hl first after go
    have hlen : u = t.urls.length := by
      have := List.drop_eq_nil_iff.1 hrest
      omega
    subst hlen
    exact .inl ⟨hl, rfl, fun i h₁ h₂ => absurd h₂ (Nat.not_lt.2 h₁)⟩
  | cons url rest ih =>
    intro u l hrest hu hl first after go
    have hget : t.urls[u]? = some url := by
      rw [← List.head?_drop, hrest]
      rfl
    have hlt : u < t.urls.length := (List.getElem?_eq_some_iff.1 hget).1
    have hnext : t.urls.drop (u + 1) = rest := by
      rw [← List.drop_drop, hrest]
      rfl
    have hs := (tryUrl_next hout hget hl).1
    rcases tryUrl_goes_or_breaks hout hget hl with ⟨f, hr, hgoes, hcause⟩ | ⟨early, hr, hbreaks⟩
    · -- The rest of the addresses is gone through with the new reason.
      have hgo : go = (Line.tryUrls t.out (pure ()) t.request (a + 1) (t.cause? (first + 1)) rest).go
          ((Line.tryUrl t.out (pure ()) t.request (a + 1) url).go l).2 := by
        rw [hcause]
        exact Act.go_bind_of_ok hr
      have hfrom : ∀ {k}, (∀ j, first + 1 ≤ j → j < k → t.Goes j) → ∀ j, first ≤ j →
        j < k → t.Goes j := by
        intro k hall j h₁ h₂
        by_cases hj : j = first
        · exact hj ▸ hgoes
        · exact hall j (by omega) h₂
      rw [hgo]
      exact (ih (u + 1) _ hnext hlt hs).imp (fun ⟨hs', hr', hall⟩ => ⟨hs', hr', hfrom hall⟩)
        fun ⟨i, hi, hs', hb, hall⟩ => ⟨i, hi, hs', hb, hfrom hall⟩
    · have hgo : go = (early.map .inl, ((Line.tryUrl t.out (pure ()) t.request (a + 1) url).go l).2) := by
        cases early with
        | ok v => exact Act.go_bind_of_ok hr
        | error e => exact Act.go_bind_of_error hr
      rw [hgo]
      exact .inr ⟨first, by omega, hs, hbreaks, fun j h₁ h₂ => absurd h₂ (Nat.not_lt.2 h₁)⟩

/-- A message that is not the last one of its round is passed when the request goes on within the
round. -/
theorem passes_of_goes (a : Nat) {i : Nat} (h₁ : a * t.urls.length ≤ i)
    (h₂ : i + 1 < a * t.urls.length + t.urls.length) (h : t.Goes i) :
    t.Passes (Pacing.Paced α) i := by
  obtain ⟨u, rfl⟩ := Nat.exists_eq_add_of_le h₁
  refine ⟨h.1, fun hdue => h.2 ?_⟩
  exact (due_of_lt (by omega)).1 hdue

/-- The last message of a round is passed when the request goes on within the round, and the pause
after the round has a number unless it is the last one. -/
theorem passes_of_last {a i : Nat} (hi : i + 1 = (a + 1) * t.urls.length) (hurls : t.urls ≠ [])
    (h : t.Goes i) (hp : i + 1 < t.limit → Pacing.Paced α (a + 1)) :
    t.Passes (Pacing.Paced α) i := by
  refine ⟨h.1, fun hdue => ?_⟩
  rcases hdue with hb | ⟨-, hlt⟩
  · exact h.2 hb
  · exact (round_of_last hi hurls).1 ▸ hp hlt

/-- Of the messages of the rounds before and of one that goes on, all but the last have been passed. -/
theorem passes_of_round (a : Nat) (hpass : ∀ i < a * t.urls.length, t.Passes (Pacing.Paced α) i) {k : Nat}
    (hk : k ≤ a * t.urls.length + t.urls.length)
    (hall : ∀ j, a * t.urls.length ≤ j → j + 1 < k → t.Goes j) :
    ∀ j, j + 1 < k → t.Passes (Pacing.Paced α) j := by
  intro j hj
  by_cases hja : j < a * t.urls.length
  · exact hpass j hja
  · exact passes_of_goes a (by omega) (by omega) (hall j (by omega) hj)

/-- A request ends with a round that is not the last one when the pause after it has no number. -/
theorem ends_of_unpaced {a i : Nat} (hi : i + 1 = (a + 1) * t.urls.length) (hurls : t.urls ≠ [])
    (h : t.Goes i) (hlt : i + 1 < t.limit) (hp : ¬ Pacing.Paced α (a + 1)) :
    t.Ends (Pacing.Paced α) (i + 1) (.error .largeInteger) := by
  obtain ⟨hround, hlast⟩ := round_of_last hi hurls
  exact .stalled (by omega) h.1 (.inr ⟨hlast, hlt⟩) (hround ▸ hp)

theorem Breaks.ends {i : Nat} {r : Except Failure (Json ⊕ Option Failure)} (h : t.Breaks i r)
    (hi : i < t.limit) : ∃ r', r = r'.map .inl ∧ t.Ends (Pacing.Paced α) (i + 1) r' := by
  cases h with
  | answered h => exact ⟨.ok _, rfl, .answered hi h⟩
  | failed h => exact ⟨.error _, rfl, .failed hi h⟩
  | stalled h hb hp => exact ⟨.error _, rfl, .stalled hi h (.inl hb) hp⟩

/-- A request that has used up some rounds ends as it should in those that are left. -/
theorem tryRounds_decided (hout : ∀ sent p, (t.out.reply sent p).delivery.Plain)
    (hurls : t.urls ≠ []) (hrounds : t.start.client.rounds = t.rounds) (left : Nat) :
    ∀ (a : Nat) (l : Line α), a + left = t.rounds.toNat →
      t.start.Sends (t.posts (a * t.urls.length)) l →
      (∀ i < a * t.urls.length, t.Passes (Pacing.Paced α) i) →
      let go := (Line.tryRounds t.out (pure ()) t.request t.urls (a + 1)
        (t.cause? (a * t.urls.length)) left).go l
      ∃ n, t.Decided (Pacing.Paced α) n go.1 go.2 := by
  induction left with
  | zero =>
    intro a l ha hl hpass go
    have hlimit : a * t.urls.length = t.limit := by
      rw [limit, ← ha]
      rfl
    refine ⟨t.limit, hlimit ▸ hl, fun i hi => hpass i (by omega), ?_⟩
    have hgo : go.1 = .error (Line.exhausted t.request.method t.rounds (t.cause? t.limit)) := by
      rw [← hlimit, ← hrounds, ← hl.rounds]
      rfl
    rw [hgo]
    exact .exhausted (hlimit ▸ hpass)
  | succ left ih =>
    intro a l ha hl hpass go
    have hpos : 0 < t.urls.length := List.length_pos_iff.2 hurls
    have hend : a * t.urls.length + t.urls.length = (a + 1) * t.urls.length := by
      rw [Nat.add_mul, Nat.one_mul]
    have hlimit : t.limit = (a + 1) * t.urls.length + left * t.urls.length := by
      rw [limit, ← ha, ← Nat.add_mul]
      congr 1
      omega
    have hbefore := fun {k} hk => passes_of_round a hpass (k := k) (hend ▸ hk)
    have hround := tryUrls_round hout a t.urls 0 l rfl (Nat.zero_le _) hl
    dsimp only [Nat.add_zero] at hround
    rw [hend] at hround
    rcases hround with ⟨hs, hr, hall⟩ | ⟨i, hi, hs, hb, hall⟩
    · have hpasses := hbefore (Nat.le_refl _) fun j h₁ h₂ => hall j h₁ (by omega)
      obtain ⟨i, hi⟩ : ∃ i, i + 1 = (a + 1) * t.urls.length :=
        ⟨(a + 1) * t.urls.length - 1, by omega⟩
      have hgoes : t.Goes i := hall i (by omega) (by omega)
      obtain ⟨l', hl', hcase⟩ := Line.tryRounds_of_undecided t.out t.request t.urls left hr
      rcases hcase with ⟨hp, hgo⟩ | ⟨hleft, hp, hgo⟩
      · have hgo : go = _ := hgo
        rw [hgo]
        refine ih (a + 1) l' (by omega) (hs.trans_nil hl') fun j hj => ?_
        by_cases hji : j = i
        · refine hji ▸ passes_of_last hi hurls hgoes fun hlt => hp ?_
          rintro rfl
          omega
        · exact hpasses j (by omega)
      · have hgo : go = _ := hgo
        have hmore : 0 < left * t.urls.length := Nat.mul_pos (Nat.pos_of_ne_zero hleft) hpos
        rw [hgo]
        exact ⟨i + 1, hi ▸ hs.trans_nil hl', fun j hj => hpasses j (by omega),
          ends_of_unpaced hi hurls hgoes (by omega) hp⟩
    · have hpasses := hbefore (k := i + 1) (by omega) fun j h₁ h₂ => hall j h₁ (by omega)
      obtain ⟨r, hr, hends⟩ := hb.ends (by omega)
      have hgo : go = _ := Line.tryRounds_of_decided t.out t.request t.urls left hr
      rw [hgo]
      exact ⟨i + 1, hs, hpasses, hends⟩

theorem ask_decided (hout : ∀ sent p, (t.out.reply sent p).delivery.Plain) (hurls : t.urls ≠ [])
    (hends : t.start.client.endpoints = .list t.urls) (hrounds : t.start.client.rounds = t.rounds) :
    let go := (Line.ask t.out t.request).go t.start
    ∃ n, t.Decided (Pacing.Paced α) n go.1 go.2 := by
  intro go
  let l := (Line.connect.go t.start).2
  have hl : Line.Sends t.start [] l := Line.quiet_connect t.start
  have hgo : go = (Line.tryRounds t.out (pure ()) t.request t.urls 1 none t.rounds.toNat).go l := by
    change (Line.ask t.out t.request).go t.start = _
    unfold Line.ask Line.askAmid
    rw [Act.go_bind_of_ok (Line.connect_ok t.start), Act.go_bind, Act.go_state]
    dsimp only
    rw [hl.endpoints, hends, hl.rounds, hrounds]
  have hzero : 0 * t.urls.length = 0 := Nat.zero_mul _
  have h := tryRounds_decided hout hurls hrounds t.rounds.toNat 0 l (by omega)
    (by rw [hzero]; exact hl) (fun i hi => absurd hi (by omega))
  rw [hzero] at h
  rw [hgo]
  exact h

omit [Seconds α] in
theorem round_le_of_lt {i : Nat} (hi : i < t.limit) : t.round i ≤ t.rounds.toNat := by
  have : i / t.urls.length < t.rounds.toNat :=
    Nat.div_lt_of_lt_mul (by rwa [limit, Nat.mul_comm] at hi)
  exact this

omit [Seconds α] in
/-- With no more rounds than there are pauses, only the replies decide. -/
theorem Decided.of_paced {paced : Nat → Prop} {n : Nat} {r : Except Failure Json} {l : Line α}
    (hd : t.Decided paced n r l) (hpaced : ∀ round ≤ t.rounds.toNat, paced round) :
    t.Decided (fun _ => True) n r l := by
  have hpass : ∀ i, t.Passes paced i → t.Passes (fun _ => True) i :=
    fun i hi => ⟨hi.1, fun _ => trivial⟩
  refine ⟨hd.sends, fun i hi => hpass i (hd.passes i hi), ?_⟩
  cases hd.ends with
  | answered hi h => exact .answered hi h
  | failed hi h => exact .failed hi h
  | stalled hi h hdue hp => exact absurd (hpaced _ (round_le_of_lt hi)) hp
  | exhausted h => exact .exhausted fun i hi => hpass i (h i hi)

omit [Seconds α] in
/-- When only the replies decide, a request has an answer, fails for a reason of its own, or fails with
a body that nests too deep. -/
theorem Decided.answer_or_failure {n : Nat} {r : Except Failure Json} {l : Line α}
    (hd : t.Decided (fun _ => True) n r l) :
    (∃ v, r = .ok v) ∨ (∃ m, r = .error (.request m)) ∨
      ∃ i reason, i < n ∧ i < t.limit ∧ (t.delivery i).TooDeep reason ∧ r = .error
      (.recursion reason) := by
  cases hd.ends with
  | answered hi h => exact .inl ⟨_, rfl⟩
  | failed hi h =>
    cases h with
    | refused h hm => exact .inr (.inl ⟨_, rfl⟩)
    | barred h => exact .inr (.inl ⟨_, rfl⟩)
    | tooDeep h => exact .inr (.inr ⟨_, _, Nat.lt_succ_self _, hi, h, rfl⟩)
  | stalled hi h hdue hp => exact absurd trivial hp
  | exhausted h => exact .inr (.inl ⟨_, rfl⟩)

omit [Seconds α] in
/-- A body that nests too deep comes with the last message, and is what the request fails with. -/
theorem Decided.of_tooDeep {paced : Nat → Prop} {n : Nat} {r : Except Failure Json} {l : Line α}
    (hd : t.Decided paced n r l) {i : Nat} {reason : String} (hi : i < n)
    (h : (t.delivery i).TooDeep reason) : i < t.limit ∧ r = .error (.recursion reason) := by
  by_cases hnext : i + 1 < n
  · exact absurd h ((hd.passes i hnext).1.tooDeep reason)
  obtain rfl : n = i + 1 := by omega
  have hends := hd.ends
  generalize hn : i + 1 = n at hends
  cases hends with
  | answered hlt hanswer =>
    obtain rfl := Nat.succ.inj hn
    generalize t.delivery i = d at h hanswer
    cases h
    cases hanswer
  | failed hlt hfails =>
    obtain rfl := Nat.succ.inj hn
    unfold FailsAt at hfails
    generalize t.delivery i = d at h hfails
    cases h
    cases hfails with
    | refused h _ => cases h
    | barred h => cases h
    | tooDeep h =>
      cases h
      exact ⟨hlt, rfl⟩
  | stalled hlt hundecided =>
    obtain rfl := Nat.succ.inj hn
    exact absurd h (hundecided.tooDeep reason)
  | exhausted hall => exact absurd h ((hall i (by omega)).1.tooDeep reason)

end Trial

namespace Line

def askAll {α : Type} [Seconds α] (out : Outside α) :
    List Request → Act (Line α) (List (Except Failure Json))
  | [] => pure []
  | request :: rest => do
    let r ← (ask out request).outcome
    return r :: (← askAll out rest)

variable {α : Type} [Seconds α] {out : Outside α}

theorem go_askAll_cons (out : Outside α) (request : Request) (rest : List Request) (l : Line α) :
    let asked := (ask out request).go l
    (askAll out (request :: rest)).go l =
      (((askAll out rest).go asked.2).1.map (asked.1 :: ·), ((askAll out rest).go asked.2).2) := by
  intro asked
  change ((askAll out rest) >>= fun rs => pure (asked.1 :: rs)).go asked.2 = _
  rw [Act.go_bind]
  rcases (askAll out rest).go asked.2 with ⟨_ | rs, l'⟩ <;> rfl

theorem askAll_decided_of_paced (hout : ∀ sent p, (out.reply sent p).delivery.Plain)
    {urls : List Json} (hurls : urls ≠ []) (rounds : Int) (requests : List Request) :
    ∀ l : Line α, l.client.endpoints = .list urls → l.client.rounds = rounds →
      ∃ rs, ((askAll out requests).go l).1 = .ok rs ∧ rs.length = requests.length ∧
        ∀ k request, requests[k]? = some request → ∃ n r, rs[k]? = some r ∧
          Trial.Decided ⟨out, request, urls, rounds, ((askAll out (requests.take k)).go l).2⟩
            (Pacing.Paced α) n r ((askAll out (requests.take (k + 1))).go l).2 := by
  induction requests with
  | nil =>
    intro l _ _
    exact ⟨[], rfl, rfl, fun k request hk => by simp at hk⟩
  | cons request rest ih =>
    intro l hends hrounds
    obtain ⟨n, hfirst⟩ := Trial.ask_decided (t := ⟨out, request, urls, rounds, l⟩) hout hurls hends
      hrounds
    obtain ⟨rs, hrs, hlen, hall⟩ := ih ((ask out request).go l).2
      (hfirst.sends.endpoints.trans hends) (hfirst.sends.rounds.trans hrounds)
    refine ⟨((ask out request).go l).1 :: rs, ?_, by simp [hlen], fun k r hk => ?_⟩
    · rw [go_askAll_cons, hrs]
      rfl
    · cases k with
      | zero =>
        obtain rfl : request = r := by simpa using hk
        exact ⟨n, _, rfl, hfirst⟩
      | succ k =>
        obtain ⟨m, r', hr', hd⟩ := hall k r (by simpa using hk)
        refine ⟨m, r', by simpa using hr', ?_⟩
        rw [List.take_succ_cons, List.take_succ_cons, go_askAll_cons, go_askAll_cons]
        exact hd

/-- In a sequence of requests on one client each request goes to the addresses in their order, round
after round; it ends with the first reply that answers or fails it, or fails when all rounds are used up.
A reply fails it by what the node says, by an address or a certificate that no other attempt will mend, or
by a body that nests too deep. The one other end is the lack of a double for a pause that is due in a round
after the first 1024. -/
theorem askAll_decided {out : Outside Float} (hout : ∀ sent p, (out.reply sent p).delivery.Plain)
    {urls : List Json} (hurls : urls ≠ []) (l : Line Float) (hl : l.client.endpoints = .list urls)
    (requests : List Request) :
    ∃ rs, ((askAll out requests).go l).1 = .ok rs ∧ rs.length = requests.length ∧
      ∀ k request, requests[k]? = some request → ∃ n r, rs[k]? = some r ∧
        Trial.Decided ⟨out, request, urls, l.client.rounds, ((askAll out (requests.take k)).go l).2⟩
          (· ≤ 1024) n r ((askAll out (requests.take (k + 1))).go l).2 := by
  have hpaced : Pacing.Paced Float = (· ≤ 1024) := funext fun _ => propext Pacing.paced_float_iff
  exact hpaced ▸ askAll_decided_of_paced hout hurls l.client.rounds requests l hl rfl

/-- A node that never serves anything, asked in more than 1024 rounds. -/
def unserved : Outside Float where
  reply _ _ := ⟨0, .http 500 .empty⟩
  jitter _ := 0
  stopwatch _ := .whole 0
  date _ := 0
  stop _ := false
  disturbance _ := none
  rows := []
  codes _ _ := []
  flushFault _ := none

theorem askAll_stalled_in_1026_rounds :
    let l : Line Float := ⟨⟨.list [.str "http://rpc"], 1026, 30, 0, 0, 0, .none⟩, { clock := 0 }⟩
    ∃ rs, ((askAll unserved [.slotOf "0x0" "0x0"]).go l).1 = .ok rs ∧
      rs[0]? = some (.error .largeInteger) := by
  intro l
  obtain ⟨rs, hrs, -, hall⟩ := @askAll_decided unserved (fun _ _ => .http 500 .empty) _
    (List.cons_ne_nil (.str "http://rpc") []) l rfl [.slotOf "0x0" "0x0"]
  obtain ⟨n, r, hr, hd⟩ := hall 0 _ rfl
  refine ⟨rs, hrs, ?_⟩
  rw [hr]
  cases hd.ends with
  | answered hi h => cases h
  | failed hi h =>
    cases h with
    | refused h => cases h
    | barred h => cases h
    | tooDeep h => cases h
  | stalled hi h hdue hp => rfl
  | exhausted h =>
    have hlast := (h 1024 (by decide)).2 (.inr ⟨by decide, by decide⟩)
    exact absurd hlast (by decide)

end Line

end ProxyCensus
