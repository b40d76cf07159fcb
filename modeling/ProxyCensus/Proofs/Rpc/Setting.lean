import ProxyCensus.Proofs.Rpc.Trials

/-!
# What requests leave alone

A request changes the clock, the messages and what is seen on the network, the numbers of the client
and its interval. Main statement: it keeps the addresses and the rounds of the client, and all of the
journal that the work on the corpus and on the files goes by.
-/

namespace ProxyCensus.Line

open Act (Agree Keeps)

variable {α β : Type}

/-- What a request leaves alone in the journal: the questions to the corpus and whether it was closed,
the disk and the flushes, and the answers to whether the run is to stop. -/
def still (j : Journal α) :
    Array Query × Disk × Array (Option Disk) × Nat × Nat × Nat × Bool × Nat :=
  (j.queries, j.disk, j.flushes, j.flushed, j.flushCalls, j.stops, j.stopped, j.disposals)

/-- What a request leaves alone. -/
def setting (l : Line α) :=
  (l.client.endpoints, l.client.rounds, still l.journal)

theorem stopped_of_setting {l l' : Line α} (h : setting l' = setting l) :
    l'.journal.stopped = l.journal.stopped ∧ l'.journal.disk = l.journal.disk := by
  simp only [setting, still, Prod.mk.injEq] at h
  obtain ⟨-, -, -, hdisk, -, -, -, -, hstopped, -⟩ := h
  exact ⟨hstopped, hdisk⟩

theorem rounds_of_setting {l l' : Line α} (h : setting l' = setting l) :
    l'.client.rounds = l.client.rounds :=
  congrArg (·.2.1) h

theorem stops_of_setting {l l' : Line α} (h : setting l' = setting l) :
    l'.journal.stops = l.journal.stops := by
  simp only [setting, still, Prod.mk.injEq] at h
  obtain ⟨-, -, -, -, -, -, -, hstops, -⟩ := h
  exact hstops

theorem disposals_of_setting {l l' : Line α} (h : setting l' = setting l) :
    l'.journal.disposals = l.journal.disposals := by
  simp only [setting, still, Prod.mk.injEq] at h
  obtain ⟨-, -, -, -, -, -, -, -, -, hdisposals⟩ := h
  exact hdisposals

theorem keeps_writing {x : Act (Journal α) β} (h : Keeps still x) :
    Keeps setting (writing x) :=
  .on h fun _ _ h => by simp only [setting, h]

theorem keeps_log (level : Level) (message : String) :
    Keeps setting (log level message : Act (Line α) Unit) :=
  keeps_writing fun _ => rfl

theorem keeps_adjust {f : Client α → Client α}
    (h : ∀ c, (f c).endpoints = c.endpoints ∧ (f c).rounds = c.rounds) :
    Keeps setting (adjust f) :=
  fun l => by simp only [setting, (h l.client).1, (h l.client).2, adjust, Act.go_change]

theorem keeps_connect : Keeps setting (connect : Act (Line α) Unit) :=
  (leads_connect (fun _ => (keeps_writing fun _ => rfl).leads)
    (keeps_adjust fun _ => ⟨rfl, rfl⟩).leads).keeps

theorem keeps_close : Keeps setting (close : Act (Line α) Unit) := by
  refine .bind .state fun l => ?_
  split
  · exact .bind (keeps_writing fun _ => rfl) fun _ => keeps_adjust fun _ => ⟨rfl, rfl⟩
  · exact .pure _

theorem close_keeps_posts : Keeps (fun l : Line α => l.journal.posts) close := by
  refine .bind .state fun l => ?_
  split
  · exact .bind (fun _ => rfl) fun _ _ => rfl
  · exact .pure _

theorem go_close (l : Line α) : ∃ l', close.go l = (.ok (), l') := by
  unfold close
  rw [Act.go_bind, Act.go_state]
  dsimp only
  split <;> exact ⟨_, rfl⟩

variable [Seconds α] (out : Outside α)

theorem keeps_sleep (seconds : α) : Keeps setting (writing (Journal.sleep seconds)) :=
  keeps_writing fun _ => rfl

theorem rests_setting : Rests out (Agree (setting (α := α))) :=
  ⟨fun _ _ => (keeps_log _ _).leads, (keeps_writing fun _ => rfl).leads, fun _ => (keeps_sleep _).leads⟩

theorem keeps_keepDistance : Keeps setting (keepDistance : Act (Line α) Unit) :=
  (leads_keepDistance (fun _ => (keeps_sleep _).leads) fun _ =>
    (keeps_adjust fun _ => ⟨rfl, rfl⟩).leads).keeps

theorem keeps_drawPause (attempt : Nat) : Keeps setting (drawPause out attempt) :=
  ((rests_setting out).drawPause attempt).keeps

theorem keeps_backOff (url : String) (attempt : Nat) (method : String) :
    Keeps setting (backOff out url attempt method) :=
  (rests_setting out).backOff url attempt method

theorem keeps_askAmid {amid : Act (Line α) Unit} (hamid : Keeps setting amid) (request : Request) :
    Keeps setting (askAmid out amid request) := by
  refine (leads_askAmid (rests_setting out) keeps_connect.leads fun attempt url => ?_).keeps
  exact (rests_setting out).tryUrl (fun _ _ _ _ => rfl) (fun _ => (keeps_writing fun _ => rfl).leads)
    hamid.leads

/-- A request leaves everything alone that the corpus, the files and the questions whether to stop go
by. -/
theorem keeps_ask (request : Request) : Keeps setting (ask out request) :=
  keeps_askAmid out (.pure ()) request

end ProxyCensus.Line
