import Mathlib.Algebra.Order.Field.Rat
import Mathlib.Data.List.Chain
import Mathlib.Tactic.Linarith
import ProxyCensus.Proofs.Rpc.Slowing

/-!
# The distance of messages

When the messages of a client are sent. The network shows pauses and messages but no times; whoever
watches it with a clock can tell them, since a pause takes the time that it names and a message the time
until its reply. Main statement: in exact fractions of a second, whatever is asked, however long replies
take and however the clock is set in between, every message is sent at least as long after the one before
it as the interval says that the client keeps then.
-/

namespace ProxyCensus

/-- A message, with the time at which it was sent and the interval that its client kept then. -/
structure Sending (α : Type) where
  post : Post
  time : α
  interval : α

/-- What someone knows who watches a client: the time, the interval that the client keeps, and the
messages that it has sent, the newest first. -/
structure Watch (α : Type) where
  clock : α
  interval : α
  /-- The messages from before the watch. -/
  earlier : List Post
  sent : List (Sending α) := []

namespace Watch

variable {α : Type}

/-- Begins to watch a line. -/
def ofLine (l : Line α) : Watch α :=
  { clock := l.journal.clock, interval := l.client.interval, earlier := l.journal.posts }

/-- All messages, the newest first. -/
def posts (w : Watch α) : List Post :=
  w.sent.map (·.post) ++ w.earlier

variable [Seconds α] (out : Outside α)

def pass (w : Watch α) (seconds : α) : Watch α :=
  { w with clock := w.clock + seconds }

/-- Something happens on the network. A pause takes its time, a message the time until its reply; and a
reply that asks to slow down lengthens the interval. -/
def see (w : Watch α) : Event α → Watch α
  | .sleep seconds => w.pass seconds
  | .post p =>
    let reply := out.reply w.posts p
    { w with clock := w.clock + reply.latency
             interval := if reply.delivery.Busy then Pacing.slowed w.interval else w.interval
             sent := ⟨p, w.clock, w.interval⟩ :: w.sent }
  | .open _ | .close => w

end Watch

/-- What may be done with a client: a question is asked, the connection is closed, or time goes by,
forwards or backwards. -/
inductive Move (α : Type) where
  | ask (request : Request)
  | close
  | pass (seconds : α)

namespace Move

variable {α : Type} [Seconds α] (out : Outside α)

def act : Move α → Act (Line α) Unit
  | .ask request => do let _ ← (Line.ask out request).outcome
  | .close => Line.close
  | .pass seconds => Line.writing (Act.change fun j => { j with clock := j.clock + seconds })

/-- Watches a move from one state of a line to another. -/
def watch (l l' : Line α) (w : Watch α) : Move α → Watch α
  | .pass seconds => w.pass seconds
  | _ => (l'.journal.trace.toList.drop l.journal.trace.size).foldl (Watch.see out) w

def after (l : Line α) : List (Move α) → Line α
  | [] => l
  | m :: rest => after ((m.act out).go l).2 rest

def watched (l : Line α) (w : Watch α) : List (Move α) → Watch α
  | [] => w
  | m :: rest =>
    let l' := ((m.act out).go l).2
    watched l' (m.watch out l l' w) rest

end Move

namespace Pacing

theorem wait?_rat (interval elapsed : Rat) :
    wait? interval elapsed = if elapsed < interval then some (interval - elapsed) else none := by
  unfold wait?
  simp only [Seconds.less, decide_eq_true_eq]

end Pacing

namespace Line

open Act (Keeps Leads)

/-- What is known of a client agrees with its line: the clock, the interval and the messages, and the time
of the newest message, by which the client keeps its distance. All messages have kept theirs. -/
structure Watched (w : Watch Rat) (l : Line Rat) : Prop where
  clock : w.clock = l.journal.clock
  interval : w.interval = l.client.interval
  posts : w.posts = l.journal.posts
  newest : ∀ s ∈ w.sent.head?, s.time = l.client.lastSent
  apart : w.sent.IsChain fun s before => before.time + s.interval ≤ s.time

theorem watched_ofLine (l : Line Rat) : Watched (.ofLine l) l :=
  ⟨rfl, rfl, rfl, fun _ h => (nomatch h), .nil⟩

variable (out : Outside Rat) {β : Type}

/-- From one state of a line to another everything that happened on the network keeps a watch in agreement
with the line. -/
def Shows (l l' : Line Rat) : Prop :=
  ∃ told, l'.journal.trace.toList = l.journal.trace.toList ++ told ∧
    ∀ w, Watched w l → Watched (told.foldl (Watch.see out) w) l'

instance : Std.Refl (Shows out) where
  refl _ := ⟨[], (List.append_nil _).symm, fun _ h => h⟩

instance : IsTrans (Line Rat) (Shows out) where
  trans := by
    rintro l l' l'' ⟨told, htrace, hwatched⟩ ⟨more, htrace', hwatched'⟩
    refine ⟨told ++ more, by rw [htrace', htrace, List.append_assoc], fun w h => ?_⟩
    rw [List.foldl_append]
    exact hwatched' _ (hwatched w h)

def bearing (l : Line Rat) : Rat × Rat × Rat × List Post × Array (Event Rat) :=
  (l.journal.clock, l.client.interval, l.client.lastSent, l.journal.posts, l.journal.trace)

variable {out}

theorem Watched.of_bearing {w : Watch Rat} {l l' : Line Rat} (h : bearing l' = bearing l)
    (hw : Watched w l) : Watched w l' := by
  simp only [bearing, Prod.mk.injEq] at h
  obtain ⟨hclock, hinterval, hlast, hposts, -⟩ := h
  exact ⟨hw.clock.trans hclock.symm, hw.interval.trans hinterval.symm, hw.posts.trans hposts.symm,
    fun s hs => (hw.newest s hs).trans hlast.symm, hw.apart⟩

theorem shows_of_keeps {x : Act (Line Rat) β} (h : Keeps bearing x) : Leads (Shows out) x := by
  intro l
  have htrace : (x.go l).2.journal.trace = l.journal.trace := congrArg (·.2.2.2.2) (h l)
  exact ⟨[], by rw [htrace, List.append_nil], fun _ hw => hw.of_bearing (h l)⟩

theorem shows_log (level : Level) (message : String) :
    Leads (Shows out) (log level message : Act (Line Rat) Unit) :=
  shows_of_keeps fun _ => rfl

theorem shows_sleep (seconds : Rat) : Leads (Shows out) (writing (Journal.sleep seconds)) :=
  fun _ => ⟨[.sleep seconds], Array.toList_push .., fun _ hw =>
    ⟨congrArg (· + seconds) hw.clock, hw.interval, hw.posts, hw.newest, hw.apart⟩⟩

theorem rests_shows : Rests out (Shows out) :=
  ⟨shows_log, shows_of_keeps fun _ => rfl, shows_sleep⟩

theorem shows_connect : Leads (Shows out) (connect : Act (Line Rat) Unit) := by
  refine leads_connect (fun timeout _ => ⟨[.open timeout], Array.toList_push .., fun _ hw => ?_⟩)
    (shows_of_keeps fun _ => rfl)
  exact ⟨hw.clock, hw.interval, hw.posts, hw.newest, hw.apart⟩

theorem shows_close : Leads (Shows out) (close : Act (Line Rat) Unit) := by
  refine .bind .state fun l => ?_
  split
  · refine .bind (fun _ => ⟨[.close], Array.toList_push .., fun _ hw => ?_⟩) fun _ =>
      shows_of_keeps fun _ => rfl
    exact ⟨hw.clock, hw.interval, hw.posts, hw.newest, hw.apart⟩
  · exact .pure _

/-- A message may be sent at this time: the client has noted the time, and it has kept its distance from
the newest message. -/
structure Due (w : Watch Rat) (l : Line Rat) : Prop where
  clock : w.clock = l.journal.clock
  interval : w.interval = l.client.interval
  posts : w.posts = l.journal.posts
  noted : l.client.lastSent = l.journal.clock
  distance : ∀ s ∈ w.sent.head?, s.time + w.interval ≤ w.clock
  apart : w.sent.IsChain fun s before => before.time + s.interval ≤ s.time

variable (out) in
/-- The client waits until it has kept its distance, whatever the clock shows. -/
theorem due_keepDistance (l : Line Rat) :
    let l' := (keepDistance.go l).2
    ∃ told, l'.journal.trace.toList = l.journal.trace.toList ++ told ∧
      ∀ w, Watched w l → Due (told.foldl (Watch.see out) w) l' := by
  intro l'
  have hl' : l' = (keepDistance.go l).2 := rfl
  unfold keepDistance at hl'
  rw [Act.go_bind, Act.go_state] at hl'
  dsimp only at hl'
  rw [Pacing.wait?_rat] at hl'
  by_cases hshort : l.journal.clock - l.client.lastSent < l.client.interval
  · rw [if_pos hshort] at hl'
    let seconds := l.client.interval - (l.journal.clock - l.client.lastSent)
    refine ⟨[.sleep seconds], hl' ▸ Array.toList_push .., fun w hw => hl' ▸ ?_⟩
    refine ⟨congrArg (· + seconds) hw.clock, hw.interval, hw.posts, rfl, fun s hs => ?_, hw.apart⟩
    change s.time + w.interval ≤ w.clock + seconds
    rw [hw.newest s hs, hw.interval, hw.clock]
    linarith
  · rw [if_neg hshort] at hl'
    refine ⟨[], hl' ▸ (List.append_nil _).symm, fun w hw => hl' ▸ ?_⟩
    refine ⟨hw.clock, hw.interval, hw.posts, rfl, fun s hs => ?_, hw.apart⟩
    change s.time + w.interval ≤ w.clock
    rw [hw.newest s hs, hw.interval, hw.clock]
    linarith

/-- The line on which the client has heard of a reply: it is slowed down if the reply asks for it. -/
def heard (d : Delivery) (l : Line Rat) : Line Rat :=
  { l with client := { l.client with
      interval := if d.Busy then Pacing.slowed l.client.interval else l.client.interval } }

/-- A message that is due keeps its distance, and its time is noted as that of the newest. -/
theorem watched_send {w : Watch Rat} {l : Line Rat} (h : Due w l) (p : Post) :
    Watched (w.see out (.post p))
      (heard (out.reply l.journal.posts p).delivery ((writing (Journal.send out p)).go l).2) := by
  have hreply : out.reply w.posts p = out.reply l.journal.posts p := by rw [h.posts]
  refine ⟨?_, ?_, congrArg (p :: ·) h.posts, fun s hs => ?_, ?_⟩
  · change w.clock + (out.reply w.posts p).latency = _
    rw [hreply, h.clock]
    rfl
  · change (if (out.reply w.posts p).delivery.Busy then _ else _) = _
    rw [hreply, h.interval]
    rfl
  · obtain rfl := Option.some.inj hs
    exact h.clock.trans h.noted.symm
  · exact List.isChain_cons.2 ⟨h.distance, h.apart⟩

variable (out) in
/-- After a reply was heard the client does nothing that a watch does not see. -/
theorem shows_settle (url method : String) (attempt : Nat) (d : Delivery) (l : Line Rat) :
    Shows out (heard d l) ((settle out url method attempt (Rpc.judge method url d)).go l).2 := by
  by_cases hbusy : d.Busy
  · have hslowed : heard d l = l.slow := by rw [heard, if_pos hbusy, slow]
    rw [hslowed, Rpc.judge_eq_busy_iff.2 hbusy]
    exact rests_shows.settle_busy url method attempt l
  · have hsame : heard d l = l := by rw [heard, if_neg hbusy]
    have hverdict : Rpc.judge method url d ≠ .busy := fun h => hbusy (Rpc.judge_eq_busy_iff.1 h)
    rw [hsame]
    exact rests_shows.settle_of_ne_busy url method attempt hverdict l

theorem shows_tryUrl (request : Request) (attempt : Nat) (url : Json) :
    Leads (Shows out) (tryUrl out (pure ()) request attempt url) := by
  intro l
  let p : Post := ⟨url, request, l.client.lastId + 1⟩
  let l₁ : Line Rat := { l with client := { l.client with lastId := l.client.lastId + 1 } }
  let l₂ := (keepDistance.go l₁).2
  let l₃ := ((writing (Journal.send out p)).go l₂).2
  let d := (out.reply l₂.journal.posts p).delivery
  obtain ⟨told, htrace, hdue⟩ := due_keepDistance out l₁
  obtain ⟨more, hmore, hsettled⟩ := shows_settle out url.display request.method attempt d l₃
  have hgo : (tryUrl out (pure ()) request attempt url).go l =
      (settle out url.display request.method attempt
        (Rpc.judge request.method url.display d)).go l₃ :=
    go_tryUrl out (fun _ => rfl) request attempt url l
  have hsent : (heard d l₃).journal.trace.toList = l.journal.trace.toList ++ told ++ [.post p] := by
    rw [← htrace]
    exact Array.toList_push ..
  refine ⟨told ++ [.post p] ++ more, ?_, fun w hw => ?_⟩
  · rw [hgo, hmore, hsent]
    simp only [List.append_assoc]
  · have hnumbered : Watched w l₁ := ⟨hw.clock, hw.interval, hw.posts, hw.newest, hw.apart⟩
    have hready : Due (told.foldl (Watch.see out) w) l₂ := hdue w hnumbered
    rw [hgo, List.foldl_append, List.foldl_append]
    exact hsettled _ (watched_send hready p)

theorem shows_ask (request : Request) : Leads (Shows out) (ask out request) :=
  leads_askAmid rests_shows shows_connect (shows_tryUrl request)

/-- What happens on the network during a move is watched to its end. -/
theorem Shows.watched {l l' : Line Rat} {w : Watch Rat} (h : Shows out l l') (hw : Watched w l) :
    Watched ((l'.journal.trace.toList.drop l.journal.trace.size).foldl (Watch.see out) w) l' := by
  obtain ⟨told, htrace, hwatched⟩ := h
  rw [htrace, ← Array.length_toList, List.drop_left]
  exact hwatched w hw

/-- After a move a watch still agrees with the line. -/
theorem watched_move (m : Move Rat) {l : Line Rat} {w : Watch Rat} (hw : Watched w l) :
    Watched (m.watch out l ((m.act out).go l).2 w) ((m.act out).go l).2 := by
  cases m with
  | ask request =>
    exact ((shows_ask request).outcome.bind (fun _ => Leads.pure ()) l).watched hw
  | close => exact (shows_close l).watched hw
  | pass seconds =>
    exact ⟨congrArg (· + seconds) hw.clock, hw.interval, hw.posts, hw.newest, hw.apart⟩

theorem watched_moves (moves : List (Move Rat)) :
    ∀ {l : Line Rat} {w : Watch Rat}, Watched w l →
      Watched (Move.watched out l w moves) (Move.after out l moves) := by
  induction moves with
  | nil => exact id
  | cons m rest ih => exact fun hw => ih (watched_move m hw)

/-- Someone watches a client, with any moves and any replies. In the end they know its clock, the interval
that it keeps and all its messages; and every message was sent at least as long after the one before it
as the interval that the client kept at that time. -/
theorem messages_keep_distance (out : Outside Rat) (moves : List (Move Rat)) (l : Line Rat) :
    let l' := Move.after out l moves
    let w := Move.watched out l (.ofLine l) moves
    w.clock = l'.journal.clock ∧ w.interval = l'.client.interval ∧ w.posts = l'.journal.posts ∧
    (∀ s ∈ w.sent.head?, s.time = l'.client.lastSent) ∧
    w.sent.IsChain fun s before => before.time + s.interval ≤ s.time := by
  intro l' w
  have h : Watched w l' := watched_moves moves (watched_ofLine l)
  exact ⟨h.clock, h.interval, h.posts, h.newest, h.apart⟩

end Line

end ProxyCensus
