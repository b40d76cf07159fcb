import ProxyCensus.Proofs.Decimal.Nearest
import ProxyCensus.Proofs.Rpc.Replies
import ProxyCensus.Proofs.Rpc.Trials

/-!
# What a client sends

Which messages a computation on a client has sent, and that it keeps the addresses and the rounds of
the client. Main statements: only sending sends anything, and one attempt at one address sends one
message under the next number and ends as the verdict on the reply says.
-/

namespace ProxyCensus

/-- The pause after a round has a number in these seconds. -/
def Pacing.Paced (α : Type) [Seconds α] (round : Nat) : Prop :=
  (Seconds.whole? (α := α) (Decimal.twoTo (round - 1))).isSome = true

/-- In doubles the pauses after the first 1024 rounds have numbers, and no other pause has one. -/
theorem Pacing.paced_float_iff {round : Nat} : Paced Float round ↔ round ≤ 1024 := by
  have h := Decimal.ofInt?_two_pow_isSome (round - 1)
  constructor
  · intro hp
    have := h.1 hp
    omega
  · intro hr
    exact h.2 (by omega)

namespace Line

open Act (Leads)

variable {α β γ : Type}

/-- From one state of a line to another the given messages were sent, the oldest first. The client
keeps its addresses and its rounds. -/
structure Sends (l : Line α) (sent : List Post) (l' : Line α) : Prop where
  posts : l'.journal.posts = sent.reverse ++ l.journal.posts
  lastId : l'.client.lastId = l.client.lastId + sent.length
  endpoints : l'.client.endpoints = l.client.endpoints
  rounds : l'.client.rounds = l.client.rounds

theorem Sends.refl (l : Line α) : Sends l [] l := ⟨rfl, rfl, rfl, rfl⟩

theorem Sends.trans {l l' l'' : Line α} {sent more : List Post} (h : Sends l sent l')
    (h' : Sends l' more l'') : Sends l (sent ++ more) l'' := by
  refine ⟨?_, ?_, h'.endpoints.trans h.endpoints, h'.rounds.trans h.rounds⟩
  · rw [h'.posts, h.posts, List.reverse_append, List.append_assoc]
  · rw [h'.lastId, h.lastId, List.length_append, Nat.add_assoc]

theorem Sends.trans_nil {l l' l'' : Line α} {sent : List Post} (h : Sends l sent l')
    (h' : Sends l' [] l'') : Sends l sent l'' := by
  have := h.trans h'
  rwa [List.append_nil] at this

/-- Nothing was sent from one state of a line to another. -/
def Silent (l l' : Line α) : Prop :=
  Sends l [] l'

instance : Std.Refl (Silent (α := α)) where
  refl := Sends.refl

instance : IsTrans (Line α) Silent where
  trans _ _ _ h h' := h.trans_nil h'

/-- A computation that sends nothing. -/
def Quiet (x : Act (Line α) β) : Prop :=
  ∀ l, Sends l [] (x.go l).2

theorem quiet_of_leads {x : Act (Line α) β} (h : Leads Silent x) : Quiet x :=
  h

theorem quiet_pure (b : β) : Quiet (pure b : Act (Line α) β) := fun l => Sends.refl l

theorem quiet_writing {x : Act (Journal α) β} (h : ∀ j, (x.go j).2.posts = j.posts) :
    Quiet (writing x) := fun l => ⟨h l.journal, rfl, rfl, rfl⟩

theorem quiet_log (level : Level) (message : String) : Quiet (log (α := α) level message) :=
  quiet_writing fun _ => rfl

theorem quiet_adjust {f : Client α → Client α}
    (h : ∀ c, (f c).lastId = c.lastId ∧ (f c).endpoints = c.endpoints ∧ (f c).rounds = c.rounds) :
    Quiet (adjust f) :=
  fun l => ⟨rfl, (h l.client).1, (h l.client).2.1, (h l.client).2.2⟩

theorem quiet_connect : Quiet (connect (α := α)) :=
  quiet_of_leads (leads_connect (fun _ => quiet_writing fun _ => rfl)
    (quiet_adjust fun _ => ⟨rfl, rfl, rfl⟩))

theorem connect_ok (l : Line α) : (connect.go l).1 = .ok () := by
  unfold connect
  rw [Act.go_bind, Act.go_state]
  dsimp only
  split <;> rfl

variable [Seconds α]

theorem quiet_sleep (seconds : α) : Quiet (writing (Journal.sleep seconds)) :=
  quiet_writing fun _ => rfl

theorem quiet_keepDistance : Quiet (keepDistance (α := α)) :=
  quiet_of_leads (leads_keepDistance quiet_sleep fun _ => quiet_adjust fun _ => ⟨rfl, rfl, rfl⟩)

theorem rests_silent (out : Outside α) : Rests out (Silent (α := α)) :=
  ⟨quiet_log, quiet_writing fun _ => rfl, quiet_sleep⟩

theorem quiet_drawPause (out : Outside α) (attempt : Nat) : Quiet (drawPause out attempt) :=
  (rests_silent out).drawPause attempt

theorem quiet_settle (out : Outside α) (url method : String) (attempt : Nat) (v : Rpc.Verdict) :
    Quiet (settle out url method attempt v) :=
  (rests_silent out).settle (fun _ => ⟨rfl, rfl, rfl, rfl⟩) url method attempt v

/-- What was to come after a pause has come, or the pause has no number. -/
def Paused (α : Type) [Seconds α] (attempt : Nat) (wanted : β → Prop) (r : Except Failure β) :
    Prop :=
  (Pacing.Paced α attempt ∧ ∃ b, r = .ok b ∧ wanted b) ∨
    (¬ Pacing.Paced α attempt ∧ r = .error .largeInteger)

theorem paused_drawPause (out : Outside α) (attempt : Nat) (l : Line α) :
    Paused α attempt (fun _ => True) ((drawPause out attempt).go l).1 := by
  have h : ((drawPause out attempt).go l).1 = Failure.orElse .largeInteger
      (Pacing.pause? attempt (out.jitter l.journal.jitters)) := rfl
  rw [h]
  unfold Paused Pacing.Paced Pacing.pause?
  cases Seconds.whole? (α := α) (Decimal.twoTo (attempt - 1)) with
  | none => exact .inr ⟨by simp, rfl⟩
  | some whole => exact .inl ⟨rfl, _, rfl, trivial⟩

theorem Paused.bind {x : Act (Line α) β} {f : β → Act (Line α) γ} {attempt : Nat}
    {wanted : γ → Prop} {l : Line α} (hx : Paused α attempt (fun _ => True) (x.go l).1)
    (hf : ∀ b l', ∃ c, ((f b).go l').1 = .ok c ∧ wanted c) :
    Paused α attempt wanted ((x >>= f).go l).1 := by
  rw [Act.go_bind]
  generalize x.go l = out at hx ⊢
  obtain ⟨r, l'⟩ := out
  rcases hx with ⟨hp, b, rfl, -⟩ | ⟨hp, rfl⟩
  · exact .inl ⟨hp, hf b l'⟩
  · exact .inr ⟨hp, rfl⟩

theorem paused_backOff (out : Outside α) (url : String) (attempt : Nat) (method : String)
    (l : Line α) :
    Paused α attempt (fun _ => True) ((backOff out url attempt method).go l).1 := by
  have hwait : ∀ l', Paused α attempt (fun _ => True) ((waitOut out url attempt method).go l').1 :=
    fun l' => (paused_drawPause out attempt l').bind fun _ _ => ⟨(), rfl, trivial⟩
  obtain ⟨announce, hannounce, hgo⟩ := exists_go_backOff out url attempt method l
  rw [hgo]
  rcases hannounce with rfl | ⟨message, rfl⟩
  · exact hwait _
  · exact hwait _

/-- How an attempt at an address ends after the given reply. -/
inductive Tried (α : Type) [Seconds α] (url method : String) (attempt : Nat) (d : Delivery) :
    Except Failure (Json ⊕ Failure) → Prop
  | answered {v : Json} (h : d.Answers v) : Tried α url method attempt d (.ok (.inl v))
  | failed {f : Failure} (h : Rpc.Fails method url d f) : Tried α url method attempt d (.error f)
  | undecided {f : Failure} (h : d.Undecided) (hp : d.Busy → Pacing.Paced α attempt)
      (hf : (Rpc.judge method url d).cause? url = some f) :
      Tried α url method attempt d (.ok (.inr f))
  | stalled (h : d.Undecided) (hb : d.Busy) (hp : ¬ Pacing.Paced α attempt) :
      Tried α url method attempt d (.error .largeInteger)

/-- A reason to go on is kept unless the client is to slow down and the pause has no number. -/
theorem settle_of_cause (out : Outside α) {url method : String} (attempt : Nat) {v : Rpc.Verdict}
    {f : Failure} (hf : v.cause? url = some f) (l : Line α) :
    (v ≠ .busy ∧ ((settle out url method attempt v).go l).1 = .ok (.inr f)) ∨
      (v = .busy ∧ Paused α attempt (· = .inr f) ((settle out url method attempt v).go l).1) := by
  cases v with
  | answer v => cases hf
  | refuse f => cases hf
  | busy =>
    refine .inr ⟨rfl, (paused_backOff out url attempt method l).bind fun _ l' => ⟨_, rfl, ?_⟩⟩
    exact congrArg Sum.inr (Option.some.inj hf)
  | status code =>
    obtain rfl := Option.some.inj hf
    exact .inl ⟨by simp, rfl⟩
  | unready reason =>
    obtain rfl := Option.some.inj hf
    exact .inl ⟨by simp, rfl⟩
  | broken fault =>
    obtain rfl := Option.some.inj hf
    exact .inl ⟨by simp, rfl⟩

theorem tried_settle (out : Outside α) (url method : String) (attempt : Nat) {d : Delivery}
    (hd : d.Plain) (l : Line α) :
    Tried α url method attempt d
      ((settle out url method attempt (Rpc.judge method url d)).go l).1 := by
  rcases Rpc.answers_or_fails_or_undecided method url d with ⟨v, ha⟩ | ⟨f, hf⟩ | hu
  · rw [Rpc.judge_of_answers ha]
    exact .answered ha
  · rw [Rpc.judge_of_fails hf]
    exact .failed hf
  obtain ⟨⟨f, hf⟩, hbusy⟩ := @Rpc.judge_of_undecided method url d hd hu
  rcases @settle_of_cause α _ out url method attempt _ f hf l with ⟨hv, h⟩ | ⟨hv, h⟩
  · rcases hbusy with ⟨-, hj⟩ | ⟨hb, -⟩
    · exact absurd hj hv
    · rw [h]
      exact .undecided hu (fun h => absurd h hb) hf
  · rcases hbusy with ⟨hb, -⟩ | ⟨-, hj⟩
    · rcases h with ⟨hp, _, h, rfl⟩ | ⟨hp, h⟩
      · rw [h]
        exact .undecided hu (fun _ => hp) hf
      · rw [h]
        exact .stalled hu hb hp
    · exact absurd hv hj

theorem keepDistance_ok (l : Line α) : ((keepDistance (α := α)).go l).1 = .ok () := by
  unfold keepDistance
  rw [Act.go_bind, Act.go_state]
  dsimp only
  split <;> rfl

/-- An attempt waits for its turn, sends its message under the next number and goes by the reply. -/
theorem go_tryUrl (out : Outside α) {amid : Act (Line α) Unit} (hok : ∀ l, (amid.go l).1 = .ok ())
    (request : Request) (attempt : Nat) (url : Json) (l : Line α) :
    let p : Post := ⟨url, request, l.client.lastId + 1⟩
    let due := (keepDistance.go
      { l with client := { l.client with lastId := l.client.lastId + 1 } }).2
    let sent := ((writing (Journal.send out p)).go due).2
    (tryUrl out amid request attempt url).go l =
      (settle out url.display request.method attempt (Rpc.judge request.method url.display
        (out.reply due.journal.posts p).delivery)).go (amid.go sent).2 := by
  intro p due sent
  change (keepDistance >>= _).go _ = _
  rw [Act.go_bind_of_ok (keepDistance_ok _)]
  change (amid >>= _).go sent = _
  rw [Act.go_bind_of_ok (hok sent)]

/-- One attempt at one address sends one message, under the next number. -/
theorem tryUrl_tried (out : Outside α) (hout : ∀ sent p, (out.reply sent p).delivery.Plain)
    {amid : Act (Line α) Unit} (hamid : Quiet amid) (hok : ∀ l, (amid.go l).1 = .ok ())
    (request : Request) (attempt : Nat) (url : Json) (l : Line α) :
    let p : Post := ⟨url, request, l.client.lastId + 1⟩
    let go := (tryUrl out amid request attempt url).go l
    Sends l [p] go.2 ∧
      Tried α url.display request.method attempt (out.reply l.journal.posts p).delivery go.1 := by
  intro p go
  -- The distance is kept under the new number.
  let l₁ : Line α := { l with client := { l.client with lastId := l.client.lastId + 1 } }
  let l₂ := (keepDistance.go l₁).2
  have h₂ : Sends l₁ [] l₂ := quiet_keepDistance l₁
  let l₃ := ((writing (Journal.send out p)).go l₂).2
  have hsent : Sends l [p] l₃ := by
    refine ⟨?_, h₂.lastId, h₂.endpoints, h₂.rounds⟩
    change p :: l₂.journal.posts = p :: l.journal.posts
    rw [h₂.posts]
    rfl
  let d := (out.reply l₂.journal.posts p).delivery
  have hd : d = (out.reply l.journal.posts p).delivery := by
    change (out.reply l₂.journal.posts p).delivery = _
    rw [h₂.posts]
    rfl
  let l₄ := (amid.go l₃).2
  have hgo : go = (settle out url.display request.method attempt
      (Rpc.judge request.method url.display d)).go l₄ :=
    go_tryUrl out hok request attempt url l
  rw [hgo, ← hd]
  exact ⟨(hsent.trans_nil (hamid l₃)).trans_nil (quiet_settle out _ _ attempt _ l₄),
    tried_settle out _ _ attempt (hout _ _) l₄⟩

/-- After a round that decides nothing the next one follows, with a pause between the two; without a
number for the pause the request ends there. -/
theorem tryRounds_of_undecided (out : Outside α) (request : Request) (urls : List Json)
    {attempt : Nat} {last cause : Option Failure} (left : Nat) {l : Line α}
    (h : ((tryUrls out (pure ()) request attempt last urls).go l).1 = .ok (.inr cause)) :
    let go := (tryRounds out (pure ()) request urls attempt last (left + 1)).go l
    ∃ l', Sends ((tryUrls out (pure ()) request attempt last urls).go l).2 [] l' ∧
      (((left ≠ 0 → Pacing.Paced α attempt) ∧
        go = (tryRounds out (pure ()) request urls (attempt + 1) cause left).go l') ∨
      (left ≠ 0 ∧ ¬ Pacing.Paced α attempt ∧ go = (.error .largeInteger, l'))) := by
  intro go
  let l₁ := ((tryUrls out (pure ()) request attempt last urls).go l).2
  have hgo : go = (do
      if left != 0 then
        writing (Journal.sleep (← drawPause out attempt))
      tryRounds out (pure ()) request urls (attempt + 1) cause left : Act (Line α) Json).go l₁ := by
    exact Act.go_bind_of_ok h
  by_cases hleft : left = 0
  · subst hleft
    exact ⟨l₁, Sends.refl l₁, .inl ⟨fun h => absurd rfl h, hgo⟩⟩
  · rw [if_pos (by simpa using hleft)] at hgo
    have hquiet := quiet_drawPause out attempt l₁
    rcases paused_drawPause out attempt l₁ with ⟨hp, pause, hdraw, -⟩ | ⟨hp, hdraw⟩
    · refine ⟨_, hquiet.trans_nil (quiet_sleep pause _), .inl ⟨fun _ => hp, hgo.trans ?_⟩⟩
      exact Act.go_bind_of_ok hdraw
    · exact ⟨_, hquiet, .inr ⟨hleft, hp, hgo.trans (Act.go_bind_of_error hdraw)⟩⟩

theorem tryRounds_of_decided (out : Outside α) (request : Request) (urls : List Json)
    {attempt : Nat} {last : Option Failure} (left : Nat) {l : Line α}
    {r : Except Failure Json}
    (h : ((tryUrls out (pure ()) request attempt last urls).go l).1 = r.map .inl) :
    (tryRounds out (pure ()) request urls attempt last (left + 1)).go l =
      (r, ((tryUrls out (pure ()) request attempt last urls).go l).2) := by
  cases r with
  | ok v => exact Act.go_bind_of_ok h
  | error e => exact Act.go_bind_of_error h

end Line

end ProxyCensus
