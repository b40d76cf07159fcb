import ProxyCensus.Proofs.Leads
import ProxyCensus.Rpc.Client

/-!
# Where a request leads

A request is tried at the addresses of its client in turn, round by round, with a pause between rounds.
What the client does is taken apart here, once for every relation between the lines before and after:
between messages it rests, with a verdict it backs off or goes on, and one attempt follows the other. Main
statement: where the rests and all attempts lead, the whole question leads.
-/

namespace ProxyCensus.Line

open Act (Leads)

variable {α : Type} {R S : Line α → Line α → Prop}

theorem go_adjust (f : Client α → Client α) (l : Line α) :
    (adjust f).go l = (.ok (), { l with client := f l.client }) := rfl

theorem leads_connect [Std.Refl R] [IsTrans (Line α) R]
    (hopen : ∀ timeout, Leads R (writing (Journal.note (.open timeout))))
    (hsession : Leads R (adjust ({ · with session := .open }))) : Leads R connect := by
  refine .bind .state fun l => ?_
  dsimp only
  split
  · exact .bind (hopen _) fun _ => hsession
  · exact .pure _

variable [Seconds α] {out : Outside α}

/-- A client that keeps its distance may pause, and notes the time. -/
theorem leads_keepDistance [Std.Refl R] [IsTrans (Line α) R]
    (hsleep : ∀ seconds, Leads R (writing (Journal.sleep seconds)))
    (hnote : ∀ time, Leads R (adjust ({ · with lastSent := time }))) : Leads R keepDistance := by
  have hnow : Leads R (do
      let now := (← Act.state).journal.clock
      adjust ({ · with lastSent := now }) : Act (Line α) Unit) :=
    .bind .state fun l => hnote l.journal.clock
  refine .bind .state fun l => ?_
  dsimp only
  split
  · exact .bind (hsleep _) fun _ => hnow
  · exact hnow

/-- The line after its client was slowed down once. -/
def slow (l : Line α) : Line α :=
  { l with client := { l.client with interval := Pacing.slowed l.client.interval } }

def waitOut (out : Outside α) (url : String) (attempt : Nat) (method : String) :
    Act (Line α) Unit := do
  let pause ← drawPause out attempt
  let text := Seconds.text pause
  log .warning s!"RPC 429 at {url} for {method}. Backing off for {text}s..."
  writing (Journal.sleep pause)

/-- Backing off slows the client down, may say so, and waits. -/
theorem exists_go_backOff (out : Outside α) (url : String) (attempt : Nat) (method : String)
    (l : Line α) :
    ∃ announce : Act (Line α) Unit,
      (announce = pure () ∨ ∃ message, announce = log .warning message) ∧
      (backOff out url attempt method).go l =
        (announce >>= fun _ => waitOut out url attempt method).go l.slow := by
  unfold backOff
  rw [Act.go_bind, Act.go_state]
  dsimp only
  rw [Act.go_bind, go_adjust]
  dsimp only
  split
  · exact ⟨_, .inr ⟨_, rfl⟩, rfl⟩
  · exact ⟨_, .inl rfl, rfl⟩

/-- What a client does between its messages leads where a relation allows: it writes to the journal, draws
how long a pause is, and pauses. -/
structure Rests (out : Outside α) (R : Line α → Line α → Prop) : Prop where
  log : ∀ level message, Leads R (log level message)
  draw : Leads R (writing (Journal.draw out))
  sleep : ∀ seconds, Leads R (writing (Journal.sleep seconds))

namespace Rests

theorem mono (h : Rests out R) (himp : ∀ {l l'}, R l l' → S l l') : Rests out S :=
  ⟨fun level message l => himp (h.log level message l), fun l => himp (h.draw l),
    fun seconds l => himp (h.sleep seconds l)⟩

variable [Std.Refl R] [IsTrans (Line α) R] (h : Rests out R)

include h

theorem drawPause (attempt : Nat) : Leads R (drawPause out attempt) :=
  .bind h.draw fun _ => .lift _

/-- Once the client is slowed down, backing off is a rest. -/
theorem backOff (url : String) (attempt : Nat) (method : String) (l : Line α) :
    R l.slow ((backOff out url attempt method).go l).2 := by
  have hwait : Leads R (waitOut out url attempt method) :=
    .bind (h.drawPause attempt) fun _ => .bind (h.log _ _) fun _ => h.sleep _
  obtain ⟨announce, hannounce, hgo⟩ := exists_go_backOff out url attempt method l
  rw [hgo]
  rcases hannounce with rfl | ⟨message, rfl⟩
  · exact hwait l.slow
  · exact (h.log _ _).bind (fun _ => hwait) l.slow

/-- A client that is to slow down does so and rests. -/
theorem settle_busy (url method : String) (attempt : Nat) (l : Line α) :
    R l.slow ((settle out url method attempt .busy).go l).2 := by
  have hrest := h.backOff url attempt method l
  unfold settle
  rw [Act.go_bind]
  generalize (Line.backOff out url attempt method).go l = result at hrest
  obtain ⟨r, l'⟩ := result
  cases r <;> exact hrest

theorem settle_of_ne_busy (url method : String) (attempt : Nat) {v : Rpc.Verdict} (hv : v ≠ .busy) :
    Leads R (settle out url method attempt v) := by
  cases v with
  | answer v => exact .pure _
  | refuse f => exact .throw f
  | busy => exact absurd rfl hv
  | status code => exact .bind (h.log _ _) fun _ => .pure _
  | unready reason => exact .bind (h.log _ _) fun _ => .pure _
  | broken fault => exact .bind (h.log _ _) fun _ => .pure _

theorem settle (hslow : ∀ l : Line α, R l l.slow) (url method : String) (attempt : Nat)
    (v : Rpc.Verdict) : Leads R (settle out url method attempt v) := by
  by_cases hv : v = .busy
  · subst hv
    exact fun l => IsTrans.trans _ _ _ (hslow l) (h.settle_busy url method attempt l)
  · exact h.settle_of_ne_busy url method attempt hv

variable {amid : Act (Line α) Unit} {request : Request}

/-- An attempt leads where its message leads, when the number, the time and the interval that the client
goes by do not matter. -/
theorem tryUrl (hclient : ∀ (l : Line α) lastId lastSent interval,
      R l { l with client := { l.client with lastId, lastSent, interval } })
    {attempt : Nat} {url : Json} (hsend : ∀ id, Leads R (writing (Journal.send out ⟨url, request, id⟩)))
    (hamid : Leads R amid) : Leads R (tryUrl out amid request attempt url) := by
  refine .bind .state fun l => .bind (fun l => ?_) fun _ =>
    .bind (leads_keepDistance h.sleep fun time l => ?_) fun _ => .bind (hsend _) fun _ =>
      .bind hamid fun _ => h.settle (fun l => ?_) _ _ _ _
  · exact hclient l _ l.client.lastSent l.client.interval
  · exact hclient l l.client.lastId time l.client.interval
  · exact hclient l l.client.lastId l.client.lastSent _

end Rests

variable [Std.Refl R] [IsTrans (Line α) R] {amid : Act (Line α) Unit} {request : Request}
  {urls : List Json}

theorem leads_tryUrls {attempt : Nat}
    (htry : ∀ url ∈ urls, Leads R (tryUrl out amid request attempt url)) :
    ∀ last, Leads R (tryUrls out amid request attempt last urls) := by
  induction urls with
  | nil => exact fun _ => .pure _
  | cons url rest ih =>
    intro last
    obtain ⟨hurl, hrest⟩ := List.forall_mem_cons.1 htry
    refine .bind hurl fun r => ?_
    cases r with
    | inl v => exact .pure _
    | inr cause => exact ih hrest _

theorem leads_tryRounds (h : Rests out R)
    (htry : ∀ attempt, ∀ url ∈ urls, Leads R (tryUrl out amid request attempt url)) (left : Nat) :
    ∀ attempt last, Leads R (tryRounds out amid request urls attempt last left) := by
  induction left with
  | zero => exact fun _ _ => .bind .state fun _ => .throw _
  | succ left ih =>
    intro attempt last
    refine .bind (leads_tryUrls (htry attempt) last) fun r => ?_
    cases r with
    | inl v => exact .pure _
    | inr last =>
      dsimp only
      split
      · exact .bind (h.drawPause attempt) fun _ => .bind (h.sleep _) fun _ => ih _ _
      · exact ih _ _

/-- A question leads where the connection, the rests and every attempt lead. -/
theorem leads_askAmid (h : Rests out R) (hconnect : Leads R connect)
    (htry : ∀ attempt url, Leads R (tryUrl out amid request attempt url)) :
    Leads R (askAmid out amid request) := by
  refine .bind hconnect fun _ => .bind .state fun l => ?_
  dsimp only
  cases l.client.endpoints with
  | list urls => exact leads_tryRounds h (fun attempt url _ => htry attempt url) _ _ _
  | scalar =>
    dsimp only
    split
    · exact .throw _
    · exact .throw _

end ProxyCensus.Line
