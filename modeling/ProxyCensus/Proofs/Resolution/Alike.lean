import ProxyCensus.Analysis
import ProxyCensus.Proofs.Resolution.Inquiry
import ProxyCensus.Proofs.Rpc.Sends
import ProxyCensus.Proofs.Rpc.Setting

/-!
# Analyses that are alike

An analysis touches its line only where it opens a connection, makes an attempt at an address, pauses
between two rounds and writes messages. Main statements: when these are alike by a part of the line, so is
every analysis; and they are alike by all of the line but its messages, its questions to the corpus and
how often it was asked whether to stop.
-/

namespace ProxyCensus

open Act (Keeps Alike)

variable {α γ : Type}

/-- A journal without the messages, the questions to the corpus, and how often it was asked whether to
stop. -/
def Journal.bare (j : Journal α) : Journal α :=
  { j with logs := #[], queries := #[], stops := 0 }

theorem Journal.exists_of_bare {j j' : Journal α} (h : j.bare = j'.bare) :
    ∃ logs queries stops, j' = { j with logs := logs, queries := queries, stops := stops } := by
  refine ⟨j'.logs, j'.queries, j'.stops, ?_⟩
  obtain ⟨clock, posts, trace, logs, queries⟩ := j
  obtain ⟨clock', posts', trace', logs', queries'⟩ := j'
  simp only [Journal.bare, Journal.mk.injEq, true_and] at h ⊢
  simp [h]

namespace Line

/-- A line with a bare journal. -/
def bare (l : Line α) : Line α :=
  { l with journal := l.journal.bare }

theorem exists_of_bare {l l' : Line α} (h : l.bare = l'.bare) :
    ∃ logs queries stops, l' = { l with
      journal := { l.journal with logs := logs, queries := queries, stops := stops } } := by
  obtain ⟨client, journal⟩ := l
  obtain ⟨client', journal'⟩ := l'
  obtain ⟨hclient, hjournal⟩ := Line.mk.inj h
  obtain ⟨logs, queries, stops, rfl⟩ := Journal.exists_of_bare hjournal
  obtain rfl : client = client' := hclient
  exact ⟨logs, queries, stops, rfl⟩

/-- Messages are alike by a part of the line that no message changes. -/
theorem alike_log {part : Line α → γ}
    (h : ∀ level logger message, Keeps part (writing (Journal.log level logger message)))
    (level : Level) (logger message message' : String) :
    Alike part (writing (Journal.log level logger message))
      (writing (Journal.log level logger message')) :=
  .of_keeps (h _ _ _) (h _ _ _) fun _ _ => rfl

variable [Seconds α]

/-- What follows a reply is alike if messages are and what is done about a node that is busy. -/
theorem alike_settle {part : Line α → γ} {out out' : Outside α}
    (hlog : ∀ level logger message, Keeps part (writing (Journal.log level logger message)))
    (hbackOff : ∀ url attempt method,
      Alike part (backOff out url attempt method) (backOff out' url attempt method))
    (url method : String) (attempt : Nat) (v : Rpc.Verdict) :
    Alike part (settle out url method attempt v) (settle out' url method attempt v) := by
  cases v with
  | answer v => exact .pure _
  | refuse f => exact .throw f
  | busy => exact (hbackOff url attempt method).bind fun _ => .pure _
  | status code => exact (alike_log hlog _ _ _ _).bind fun _ => .pure _
  | unready reason => exact (alike_log hlog _ _ _ _).bind fun _ => .pure _
  | broken fault => exact (alike_log hlog _ _ _ _).bind fun _ => .pure _

/-- What an analysis does to its line on the one outside and on the other is alike by a part of the
line. -/
structure Akin (part : Line α → γ) (out out' : Outside α) : Prop where
  client : ∀ l l', part l = part l' →
    l.client.endpoints = l'.client.endpoints ∧ l.client.rounds = l'.client.rounds
  log : ∀ level logger message, Keeps part (writing (Journal.log level logger message))
  connect : Alike part connect connect
  tryUrl : ∀ request attempt url, Alike part (tryUrl out (pure ()) request attempt url)
    (tryUrl out' (pure ()) request attempt url)
  pause : ∀ attempt, Alike part (do writing (Journal.sleep (← drawPause out attempt)))
    (do writing (Journal.sleep (← drawPause out' attempt)))

namespace Akin

variable {part : Line α → γ} {out out' : Outside α}

theorem tryUrls (h : Akin part out out') (request : Request) (attempt : Nat) (urls : List Json) :
    ∀ last, Alike part (Line.tryUrls out (pure ()) request attempt last urls)
      (Line.tryUrls out' (pure ()) request attempt last urls) := by
  induction urls with
  | nil => exact fun _ => .pure _
  | cons url rest ih =>
    intro last
    refine (h.tryUrl request attempt url).bind fun r => ?_
    cases r with
    | inl v => exact .pure _
    | inr cause => exact ih _

theorem tryRounds (h : Akin part out out') (request : Request) (urls : List Json) (left : Nat) :
    ∀ attempt last, Alike part (Line.tryRounds out (pure ()) request urls attempt last left)
      (Line.tryRounds out' (pure ()) request urls attempt last left) := by
  induction left with
  | zero =>
    intro attempt last
    refine .bind_state fun l l' hpart => ?_
    dsimp only
    rw [(h.client l l' hpart).2]
    exact .throw _
  | succ left ih =>
    intro attempt last
    refine (h.tryUrls request attempt urls last).bind fun r => ?_
    cases r with
    | inl v => exact .pure _
    | inr last =>
      dsimp only
      split
      · rw [← bind_assoc, ← bind_assoc]
        exact (h.pause attempt).bind fun _ => ih _ _
      · exact ih _ _

theorem ask (h : Akin part out out') (request : Request) :
    Alike part (Line.ask out request) (Line.ask out' request) := by
  refine h.connect.bind fun _ => .bind_state fun l l' hpart => ?_
  obtain ⟨hends, hrounds⟩ := h.client l l' hpart
  dsimp only
  rw [hends, hrounds]
  cases l'.client.endpoints with
  | list urls => exact h.tryRounds request urls _ _ _
  | scalar =>
    dsimp only
    split
    · exact .throw _
    · exact .throw _

theorem inquiry {β : Type} (h : Akin part out out') (x : Inquiry β) :
    Alike part (x.run out) (x.run out') := by
  induction x with
  | done result => exact .lift result
  | ask request next ih => exact (h.ask request).bind ih

theorem resolution (h : Akin part out out') (chain : Option Int) (m : Match) (address : String) :
    Alike part (Resolution.resolve out chain m address) (Resolution.resolve out' chain m address) := by
  rw [Resolution.resolve_eq_report, Resolution.resolve_eq_report]
  refine (h.inquiry _).outcome.bind fun r => ?_
  rcases r with f | (_ | ⟨first, rest⟩)
  · unfold Resolution.report
    dsimp only
    split
    · exact (alike_log h.log _ _ _ _).bind fun _ => .pure _
    · exact .throw _
  · exact (alike_log h.log _ _ _ _).bind fun _ => .pure _
  · exact .pure _

theorem resolveEach (h : Akin part out out') (chain : Option Int) (found : List Match) :
    ∀ c, Alike part (Analysis.resolveEach out chain c found) (Analysis.resolveEach out' chain c found) := by
  induction found with
  | nil => exact fun _ => .pure _
  | cons m rest ih => exact fun c => (h.resolution chain m c.address).bind fun _ => ih _

theorem analysis (h : Akin part out out') (chain : Option Int) (record : ContractRecord)
    (found : List Match) : Alike part (Analysis.resolve out chain record found)
      (Analysis.resolve out' chain record found) := by
  unfold Analysis.resolve
  dsimp only
  split
  · exact .pure _
  · split
    · exact (h.resolution chain _ _).bind fun _ => .pure _
    · exact .pure _
  · refine (h.resolveEach chain found _).bind fun c => .bind ?_ fun _ => .pure _
    unfold Analysis.reportUnresolved
    split
    · exact alike_log h.log _ _ _ _
    · exact .pure _

end Akin

variable {out out' : Outside α}

omit [Seconds α] in
theorem alike_writing {β : Type} {x y : Act (Journal α) β} (h : Alike Journal.bare x y) :
    Alike bare (writing x) (writing y) := by
  refine .on h (fun l l' hpart => congrArg Line.journal hpart) fun l l' j j' hpart hj => ?_
  obtain ⟨hclient, -⟩ := Line.mk.inj hpart
  exact congrArg₂ Line.mk hclient hj

omit [Seconds α] in
theorem alike_adjust (f : Client α → Client α) : Alike bare (adjust f) (adjust f) :=
  .change fun _ _ hpart => congrArg₂ Line.mk (congrArg (fun l => f l.client) hpart)
    (congrArg Line.journal hpart)

omit [Seconds α] in
theorem keeps_bare_log (level : Level) (logger message : String) :
    Keeps bare (writing (Journal.log level logger message) : Act (Line α) Unit) :=
  fun _ => rfl

theorem alike_sleep (seconds : α) :
    Alike bare (writing (Journal.sleep seconds)) (writing (Journal.sleep seconds)) := by
  refine alike_writing (.change fun j j' hpart => ?_)
  obtain ⟨logs, queries, stops, rfl⟩ := Journal.exists_of_bare hpart
  rfl

theorem alike_keepDistance : Alike (α := Unit) (bare (α := α)) keepDistance keepDistance := by
  refine .bind_state fun l l' hpart => ?_
  obtain ⟨logs, queries, stops, rfl⟩ := exists_of_bare hpart
  have hnow : Alike bare (do
      let now := (← Act.state).journal.clock
      adjust ({ · with lastSent := now }) : Act (Line α) Unit) (do
      let now := (← Act.state).journal.clock
      adjust ({ · with lastSent := now }) : Act (Line α) Unit) := by
    refine .bind_state fun l l' hpart => ?_
    obtain ⟨logs, queries, stops, rfl⟩ := exists_of_bare hpart
    exact alike_adjust _
  dsimp only
  split
  · exact (alike_sleep _).bind fun _ => hnow
  · exact hnow

theorem alike_drawPause (hjitter : out'.jitter = out.jitter) (attempt : Nat) :
    Alike bare (drawPause out attempt) (drawPause out' attempt) := by
  refine .bind (alike_writing fun j j' hpart => ?_) fun _ => .lift _
  obtain ⟨logs, queries, stops, rfl⟩ := Journal.exists_of_bare hpart
  unfold Journal.draw
  rw [Act.go_of, Act.go_of, hjitter]
  exact ⟨rfl, rfl⟩

theorem alike_backOff (hjitter : out'.jitter = out.jitter) (url : String) (attempt : Nat)
    (method : String) : Alike bare (backOff out url attempt method) (backOff out' url attempt method) := by
  refine .bind_state fun l l' hpart => ?_
  obtain ⟨logs, queries, stops, rfl⟩ := exists_of_bare hpart
  dsimp only
  refine (alike_adjust _).bind fun _ => ?_
  have hlog : ∀ message, Alike bare (log .warning message : Act (Line α) Unit) (log .warning message) :=
    fun _ => alike_log keeps_bare_log _ _ _ _
  have hpause := (alike_drawPause hjitter attempt).bind fun pause =>
    (hlog s!"RPC 429 at {url} for {method}. Backing off for {Seconds.text pause}s...").bind fun _ =>
      alike_sleep pause
  split
  · exact (hlog _).bind fun _ => hpause
  · exact hpause

theorem alike_send (hreply : out'.reply = out.reply) (p : Post) :
    Alike bare (writing (Journal.send out p)) (writing (Journal.send out' p)) := by
  refine alike_writing fun j j' hpart => ?_
  obtain ⟨logs, queries, stops, rfl⟩ := Journal.exists_of_bare hpart
  unfold Journal.send
  rw [Act.go_of, Act.go_of, hreply]
  exact ⟨rfl, rfl⟩

omit [Seconds α] in
theorem alike_session (event : Event α) (session : Session) :
    Alike (α := Unit) bare
      (do writing (Journal.note event); adjust ({ · with session := session }))
      (do writing (Journal.note event); adjust ({ · with session := session })) := by
  refine .bind (alike_writing (.change fun j j' hpart => ?_)) fun _ => alike_adjust _
  obtain ⟨logs, queries, stops, rfl⟩ := Journal.exists_of_bare hpart
  rfl

omit [Seconds α] in
theorem alike_connect : Alike (α := Unit) (bare (α := α)) connect connect := by
  refine .bind_state fun l l' hpart => ?_
  obtain ⟨logs, queries, stops, rfl⟩ := exists_of_bare hpart
  dsimp only
  split
  · exact alike_session _ _
  · exact .pure _

omit [Seconds α] in
theorem alike_close : Alike (α := Unit) (bare (α := α)) close close := by
  refine .bind_state fun l l' hpart => ?_
  obtain ⟨logs, queries, stops, rfl⟩ := exists_of_bare hpart
  split
  · exact alike_session _ _
  · exact .pure _

/-- With the same replies and the same random numbers what is done to a line does not depend on its
messages, its questions to the corpus and how often it was asked whether to stop. -/
theorem akin_bare (hreply : out'.reply = out.reply) (hjitter : out'.jitter = out.jitter) :
    Akin bare out out' := by
  refine ⟨fun l l' hpart => ?_, keeps_bare_log, alike_connect, fun request attempt url => ?_,
    fun attempt => (alike_drawPause hjitter attempt).bind alike_sleep⟩
  · obtain ⟨logs, queries, stops, rfl⟩ := exists_of_bare hpart
    exact ⟨rfl, rfl⟩
  · refine .bind_state fun l l' hpart => ?_
    obtain ⟨logs, queries, stops, rfl⟩ := exists_of_bare hpart
    exact (alike_adjust _).bind fun _ => alike_keepDistance.bind fun _ =>
      (alike_send hreply _).bind fun _ => (Alike.pure ()).bind fun _ =>
        alike_settle keeps_bare_log (alike_backOff hjitter) _ _ _ _

end Line

end ProxyCensus
