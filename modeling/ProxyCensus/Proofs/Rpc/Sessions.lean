import ProxyCensus.Proofs.Rpc.Setting
import ProxyCensus.Proofs.Rpc.Trials

/-!
# Connections of a client

What a client does on the network. Main statement: a request opens a connection unless there is one,
everything else that it does is to pause and to send messages to the client's own addresses, and the
connection stays open, however the request ends.
-/

namespace ProxyCensus

/-- The addresses that requests go to; none when they cannot be gone through. -/
def Endpoints.urls : Endpoints → List Json
  | .list urls => urls
  | .scalar => []

/-- What may happen while a connection is open: a pause, or a message to one of some addresses. -/
inductive Event.Amid {α : Type} (urls : List Json) : Event α → Prop where
  | post {p : Post} (h : p.url ∈ urls) : Amid urls (.post p)
  | sleep (seconds : α) : Amid urls (.sleep seconds)

namespace Line

open Act (Keeps Leads)

variable {α β : Type} {urls : List Json}

/-- From one state of a line to another everything that happened is what may happen while a connection is
open. -/
structure Speaks (urls : List Json) (l l' : Line α) : Prop where
  session : l'.client.session = l.client.session
  trace : ∃ told, l'.journal.trace.toList = l.journal.trace.toList ++ told ∧ ∀ e ∈ told, e.Amid urls

instance : Std.Refl (Speaks (α := α) urls) where
  refl _ := ⟨rfl, [], (List.append_nil _).symm, fun _ h => absurd h List.not_mem_nil⟩

instance : IsTrans (Line α) (Speaks urls) where
  trans := by
    rintro l l' l'' ⟨hsession, told, htrace, htold⟩ ⟨hsession', more, htrace', hmore⟩
    refine ⟨hsession'.trans hsession, told ++ more, ?_, ?_⟩
    · rw [htrace', htrace, List.append_assoc]
    · exact List.forall_mem_append.2 ⟨htold, hmore⟩

def visible (l : Line α) : Session × Array (Event α) :=
  (l.client.session, l.journal.trace)

theorem speaks_of_keeps {x : Act (Line α) β} (h : Keeps visible x) : Leads (Speaks urls) x := by
  intro l
  obtain ⟨hsession, htrace⟩ := Prod.mk.inj (h l)
  exact ⟨hsession, [], by rw [htrace, List.append_nil], fun _ h => absurd h List.not_mem_nil⟩

theorem keeps_visible_log (level : Level) (logger message : String) :
    Keeps visible (writing (Journal.log level logger message) : Act (Line α) Unit) :=
  fun _ => rfl

theorem speaks_log (level : Level) (message : String) :
    Leads (Speaks urls) (log level message : Act (Line α) Unit) :=
  speaks_of_keeps (keeps_visible_log level _ message)

variable [Seconds α] (out : Outside α)

theorem speaks_sleep (seconds : α) : Leads (Speaks urls) (writing (Journal.sleep seconds)) :=
  fun _ => ⟨rfl, [.sleep seconds], Array.toList_push .., fun _ h =>
    List.mem_singleton.1 h ▸ .sleep seconds⟩

theorem speaks_send {p : Post} (h : p.url ∈ urls) :
    Leads (Speaks urls) (writing (Journal.send out p)) :=
  fun _ => ⟨rfl, [.post p], Array.toList_push .., fun _ he => List.mem_singleton.1 he ▸ .post h⟩

theorem rests_speaks : Rests out (Speaks (α := α) urls) :=
  ⟨speaks_log, speaks_of_keeps fun _ => rfl, speaks_sleep⟩

theorem speaks_tryUrl (request : Request) (attempt : Nat) {url : Json} (h : url ∈ urls) :
    Leads (Speaks urls) (tryUrl out (pure ()) request attempt url) := by
  refine (rests_speaks out).tryUrl (fun l _ _ _ => ?_) (fun _ => speaks_send out h) (.pure ())
  exact ⟨rfl, [], (List.append_nil _).symm, fun _ h => absurd h List.not_mem_nil⟩

omit [Seconds α] in
/-- After connecting there is a connection: the one that there was, or a new one. -/
theorem go_connect (l : Line α) : ∃ l', connect.go l = (.ok (), l') ∧ l'.client.session = .open ∧
    l'.client.endpoints = l.client.endpoints ∧ l'.client.rounds = l.client.rounds ∧
    (l.client.session = .open ∧ l'.journal.trace = l.journal.trace ∨
      l.client.session ≠ .open ∧ l'.journal.trace = l.journal.trace.push (.open l.client.timeout)) := by
  unfold connect
  rw [Act.go_bind, Act.go_state]
  dsimp only
  by_cases h : l.client.session = .open
  · rw [if_neg (by simp [h])]
    exact ⟨l, rfl, h, rfl, rfl, .inl ⟨h, rfl⟩⟩
  · rw [if_pos (by simp [h])]
    exact ⟨_, rfl, rfl, rfl, rfl, .inr ⟨h, rfl⟩⟩

omit [Seconds α] in
theorem trace_close_of_open {l : Line α} (h : l.client.session = .open) :
    (close.go l).2.journal.trace = l.journal.trace.push .close := by
  unfold close
  rw [Act.go_bind, Act.go_state]
  dsimp only
  rw [if_pos (by simp [h])]
  rfl

omit [Seconds α] in
theorem trace_close_of_not_open {l : Line α} (h : l.client.session ≠ .open) :
    (close.go l).2.journal.trace = l.journal.trace := by
  unfold close
  rw [Act.go_bind, Act.go_state]
  dsimp only
  rw [if_neg (by simp [h])]
  rfl

/-- What has happened while the client of some addresses opened a connection at most once and closed
none, given its connection before and after. -/
inductive Conversation (urls : List Json) : Session → Session → List (Event α) → Prop where
  | silent (s : Session) : Conversation urls s s []
  | goesOn {told : List (Event α)} (h : ∀ e ∈ told, e.Amid urls) : Conversation urls .open .open told
  | opens {s : Session} {told : List (Event α)} (hs : s ≠ .open) (timeout : Float)
    (h : ∀ e ∈ told, e.Amid urls) : Conversation urls s .open (.open timeout :: told)

omit [Seconds α] in
theorem Conversation.append {s s' s'' : Session} {told more : List (Event α)}
    (h : Conversation urls s s' told) (h' : Conversation urls s' s'' more) :
    Conversation urls s s'' (told ++ more) := by
  cases h with
  | silent s => exact h'
  | goesOn h =>
    cases h' with
    | silent =>
      rw [List.append_nil]
      exact .goesOn h
    | goesOn h' => exact .goesOn (List.forall_mem_append.2 ⟨h, h'⟩)
    | opens hs => exact absurd rfl hs
  | opens hs timeout h =>
    cases h' with
    | silent =>
      rw [List.append_nil]
      exact .opens hs timeout h
    | goesOn h' => exact .opens hs timeout (List.forall_mem_append.2 ⟨h, h'⟩)
    | opens hs => exact absurd rfl hs

/-- From one state of a line to another its client opened a connection at most once, closed none, and
sent messages to its own addresses only. -/
structure Talks (l l' : Line α) : Prop where
  endpoints : l'.client.endpoints = l.client.endpoints
  trace : ∃ told, l'.journal.trace.toList = l.journal.trace.toList ++ told ∧
    Conversation l.client.endpoints.urls l.client.session l'.client.session told

instance : Std.Refl (Talks (α := α)) where
  refl _ := ⟨rfl, [], (List.append_nil _).symm, .silent _⟩

instance : IsTrans (Line α) Talks where
  trans := by
    rintro l l' l'' ⟨hends, told, htrace, htold⟩ ⟨hends', more, htrace', hmore⟩
    refine ⟨hends'.trans hends, told ++ more, ?_, htold.append (hends ▸ hmore)⟩
    rw [htrace', htrace, List.append_assoc]

omit [Seconds α] in
theorem talks_of_keeps {x : Act (Line α) β} (hends : Keeps (·.client.endpoints) x)
    (h : Keeps visible x) : Leads Talks x := by
  intro l
  obtain ⟨hsession, htrace⟩ := Prod.mk.inj (h l)
  refine ⟨hends l, [], by rw [htrace, List.append_nil], ?_⟩
  rw [hsession]
  exact .silent _

/-- Whatever is asked, and however it ends, the client opens a connection at most once and closes none. -/
theorem talks_ask (request : Request) : Leads Talks (ask out request) := by
  intro l
  have hends : (((ask out request).go l).2).client.endpoints = l.client.endpoints :=
    (Prod.mk.inj (keeps_ask out request l)).1
  refine ⟨hends, ?_⟩
  obtain ⟨l₁, hconnect, hopen, hends₁, hrounds, hcase⟩ := go_connect l
  -- With the connection the request only speaks.
  have hspeaks : Speaks l.client.endpoints.urls l₁ ((ask out request).go l).2 := by
    unfold ask askAmid
    rw [Act.go_bind, hconnect]
    dsimp only
    rw [Act.go_bind, Act.go_state]
    dsimp only
    rw [hends₁]
    cases l.client.endpoints with
    | list urls =>
      exact leads_tryRounds (rests_speaks out) (fun attempt _ => speaks_tryUrl out request attempt) _ _ _ l₁
    | scalar =>
      dsimp only
      split
      · exact Std.Refl.refl l₁
      · exact Std.Refl.refl l₁
  obtain ⟨hsession, told, htrace, htold⟩ := hspeaks
  rw [hsession, hopen]
  rcases hcase with ⟨hbefore, hsame⟩ | ⟨hbefore, hpushed⟩
  · exact ⟨told, by rw [htrace, hsame], hbefore ▸ .goesOn htold⟩
  · refine ⟨.open l.client.timeout :: told, ?_, .opens hbefore _ htold⟩
    rw [htrace, hpushed, Array.toList_push, List.append_assoc]
    rfl

end Line

end ProxyCensus
