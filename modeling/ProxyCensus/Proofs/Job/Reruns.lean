import Mathlib.Logic.Relation
import ProxyCensus.Proofs.Job.Marks
import ProxyCensus.Proofs.Leads
import ProxyCensus.Proofs.Resolution.Outcomes

/-!
# Running a job again

One job can be run several times, and its marks last from one run to the next. Main statement: every run
ends with its last phase, an interrupted job stays interrupted and is not asked again, and when the last
phase of a run begins the job is marked as complete exactly when the other phases of this run returned and
it is not interrupted, or when they failed and an earlier run has left the mark.
-/

namespace ProxyCensus.Job

open Act (Keeps Leads)
open Relation (ReflTransGen)

variable {τ α β : Type} {out : Outside α} {job job' : Job τ α}

/-- A step of a phase: it asks whether to stop, or it leaves alone both marks and how often was asked. -/
inductive Move (out : Outside α) : Job τ α → Job τ α → Prop
  | poll (job : Job τ α) : Move out job ((shouldStop out).go job).2
  | other {job job' : Job τ α} (hmarks : marks job' = marks job)
    (hstops : job'.journal.stops = job.journal.stops) : Move out job job'

def Polls (out : Outside α) (x : Act (Job τ α) β) : Prop :=
  Leads (ReflTransGen (Move out)) x

/-- A job that is interrupted stays so and is not asked any more. -/
def Heeds (job job' : Job τ α) : Prop :=
  job.interrupted = true → job'.interrupted = true ∧ job'.journal.stops = job.journal.stops

theorem Heeds.refl (job : Job τ α) : Heeds job job :=
  fun h => ⟨h, rfl⟩

theorem Heeds.trans {job'' : Job τ α} (h : Heeds job job') (h' : Heeds job' job'') :
    Heeds job job'' := by
  intro hinterrupted
  obtain ⟨hinterrupted', hstops⟩ := h hinterrupted
  obtain ⟨hinterrupted'', hstops'⟩ := h' hinterrupted'
  exact ⟨hinterrupted'', hstops'.trans hstops⟩

theorem go_shouldStop_of_interrupted (h : job.interrupted = true) :
    (shouldStop out).go job = (.ok true, job) := by
  unfold shouldStop
  rw [Act.go_bind, Act.go_state]
  dsimp only
  rw [if_pos h]
  rfl

theorem Move.heeds (h : Move out job job') : Heeds job job' := by
  intro hinterrupted
  cases h with
  | poll => rw [go_shouldStop_of_interrupted hinterrupted]; exact ⟨hinterrupted, rfl⟩
  | other hmarks hstops => exact ⟨(congrArg Prod.fst hmarks).trans hinterrupted, hstops⟩

theorem Move.completed (h : Move out job job') : job'.completed = job.completed := by
  cases h with
  | poll => exact shouldStop_keeps (fun _ _ _ => rfl) out job
  | other hmarks _ => exact congrArg Prod.snd hmarks

theorem heeds_of_moves (h : ReflTransGen (Move out) job job') : Heeds job job' := by
  induction h with
  | refl => exact .refl job
  | tail _ hmove ih => exact ih.trans hmove.heeds

theorem completed_of_moves (h : ReflTransGen (Move out) job job') :
    job'.completed = job.completed := by
  induction h with
  | refl => rfl
  | tail _ hmove ih => exact hmove.completed.trans ih

/-- A phase that asks so many times whether to stop, and then returns or fails. -/
def scripted (out : Outside α) (fault : Option Failure) : Nat → Act (Job τ α) Unit
  | 0 => fault.elim (pure ()) throw
  | n + 1 => do
    let _ ← shouldStop out
    scripted out fault n

theorem polls_scripted (fault : Option Failure) (n : Nat) :
    Polls out (scripted out fault n : Act (Job τ α) Unit) := by
  induction n with
  | zero =>
    cases fault with
    | none => exact .pure ()
    | some f => exact .throw f
  | succ n ih => exact .bind (fun job => .single (.poll job)) fun _ => ih

structure Phases (τ α : Type) where
  start : Act (Job τ α) Unit
  work : Act (Job τ α) Unit
  finish : Act (Job τ α) Unit

inductive Phase where
  | start
  | work
  | finish
  deriving DecidableEq

namespace Phases

variable (p : Phases τ α) (job : Job τ α)

def run : Act (Job τ α) Unit :=
  Job.run p.start p.work p.finish

structure Polls (out : Outside α) : Prop where
  start : Job.Polls out p.start
  work : Job.Polls out p.work
  finish : Job.Polls out p.finish

def body : Act (Job τ α) Unit := do
  p.start
  p.work

/-- The phases before the last one return. -/
def Returns : Prop :=
  (p.body.go job).1 = .ok ()

/-- The job when the last phase begins. -/
def ending : Job τ α :=
  (Act.go (do p.start; p.work; settle) job).2

/-- A run: which phases it goes through, each with the job as it is when the phase begins, what the run
returns and what has become of the job. -/
inductive Goes : List (Phase × Job τ α) → Except Failure Unit → Job τ α → Prop
  | startFails {f : Failure} {job₁ last : Job τ α} {r : Except Failure Unit}
    (hstart : p.start.go job = (.error f, job₁)) (hfinish : p.finish.go job₁ = (r, last)) :
    Goes [(.start, job), (.finish, job₁)] (r >>= fun _ => .error f) last
  | workFails {f : Failure} {job₁ job₂ last : Job τ α} {r : Except Failure Unit}
    (hstart : p.start.go job = (.ok (), job₁)) (hwork : p.work.go job₁ = (.error f, job₂))
    (hfinish : p.finish.go job₂ = (r, last)) :
    Goes [(.start, job), (.work, job₁), (.finish, job₂)] (r >>= fun _ => .error f) last
  | returns {job₁ job₂ last : Job τ α} {r : Except Failure Unit}
    (hstart : p.start.go job = (.ok (), job₁)) (hwork : p.work.go job₁ = (.ok (), job₂))
    (hfinish : p.finish.go { job₂ with completed := !job₂.interrupted } = (r, last)) :
    Goes [(.start, job), (.work, job₁), (.finish, { job₂ with completed := !job₂.interrupted })] r last

variable {p} {job}

theorem go_settled : Act.go (do p.start; p.work; settle) job = (p.body >>= fun _ => settle).go job := by
  rw [body, bind_assoc]

theorem ending_of_returns (h : p.Returns job) :
    p.ending job = { (p.body.go job).2 with completed := !(p.body.go job).2.interrupted } := by
  rw [ending, go_settled, Act.go_bind_of_ok h]
  rfl

theorem ending_of_fails {f : Failure} (h : (p.body.go job).1 = .error f) :
    p.ending job = (p.body.go job).2 := by
  rw [ending, go_settled, Act.go_bind_of_error h]

theorem fails_of_not_returns (h : ¬ p.Returns job) : ∃ f, (p.body.go job).1 = .error f := by
  unfold Returns at h
  cases hbody : (p.body.go job).1 with
  | ok u => exact absurd hbody h
  | error f => exact ⟨f, rfl⟩

theorem go_run_eq : p.run.go job = ((p.finish.go (p.ending job)).1 >>= fun _ =>
    (Act.go (do p.start; p.work; settle) job).1, (p.finish.go (p.ending job)).2) := by
  unfold run Job.run Act.andFinally ending
  rw [Act.go_of]
  rcases Act.go (do p.start; p.work; settle) job with ⟨r, s⟩
  dsimp only
  rcases p.finish.go s with ⟨_ | _, s'⟩ <;> rfl

namespace Polls

variable (h : p.Polls out)

include h

theorem body : Job.Polls out p.body :=
  .bind h.start fun _ => h.work

/-- What is marked when the last phase begins. -/
theorem completed_ending : (p.ending job).completed = true ↔
    p.Returns job ∧ (p.ending job).interrupted = false ∨ ¬ p.Returns job ∧ job.completed = true := by
  by_cases hreturns : p.Returns job
  · rw [ending_of_returns hreturns]
    simp [hreturns]
  · obtain ⟨f, hf⟩ := fails_of_not_returns hreturns
    rw [ending_of_fails hf, completed_of_moves (h.body job)]
    simp [hreturns]

theorem heeds_ending : Heeds job (p.ending job) := by
  have hbody := heeds_of_moves (h.body job)
  by_cases hreturns : p.Returns job
  · rw [ending_of_returns hreturns]
    exact hbody
  · obtain ⟨f, hf⟩ := fails_of_not_returns hreturns
    rwa [ending_of_fails hf]

theorem heeds_last : Heeds (p.ending job) (p.run.go job).2 := by
  rw [go_run_eq]
  exact heeds_of_moves (h.finish _)

theorem completed_last : (p.run.go job).2.completed = (p.ending job).completed := by
  rw [go_run_eq]
  exact completed_of_moves (h.finish _)

/-- A run goes through its last phase once and last, and whatever came before heeds what the last phase
begins with. -/
theorem goes : ∃ before,
    p.Goes job (before ++ [(.finish, p.ending job)]) (p.run.go job).1 (p.run.go job).2 ∧
    ∀ v ∈ before, v.1 ≠ .finish ∧ Heeds v.2 (p.ending job) := by
  have hfirst : Phase.start ≠ .finish ∧ Heeds job (p.ending job) := ⟨by decide, h.heeds_ending⟩
  rw [go_run_eq, go_settled]
  rcases hstart : p.start.go job with ⟨f | _, job₁⟩
  · have hbody : p.body.go job = (.error f, job₁) := by
      rw [Phases.body, Act.go_bind, hstart]
    have hending := ending_of_fails (congrArg Prod.fst hbody)
    rw [hbody] at hending
    refine ⟨[(.start, job)], ?_, by simpa using hfirst⟩
    rw [hending, Act.go_bind, hbody]
    exact .startFails hstart rfl
  · have hbody : p.body.go job = p.work.go job₁ := by
      rw [Phases.body, Act.go_bind, hstart]
    have hsecond : Heeds job₁ (p.work.go job₁).2 := heeds_of_moves (h.work job₁)
    rcases hwork : p.work.go job₁ with ⟨f | _, job₂⟩
    · rw [hwork] at hbody hsecond
      have hending := ending_of_fails (congrArg Prod.fst hbody)
      rw [hbody] at hending
      rw [hending] at hfirst ⊢
      refine ⟨[(.start, job), (.work, job₁)], ?_, by simpa using ⟨hfirst.2, hsecond⟩⟩
      rw [Act.go_bind, hbody]
      exact .workFails hstart hwork rfl
    · rw [hwork] at hbody hsecond
      have hending := ending_of_returns (congrArg Prod.fst hbody)
      rw [hbody] at hending
      rw [hending] at hfirst ⊢
      refine ⟨[(.start, job), (.work, job₁)], ?_, by simpa using ⟨hfirst.2, hsecond⟩⟩
      have hresult : ∀ r : Except Failure Unit, (r >>= fun _ => .ok ()) = r := by
        rintro (_ | _) <;> rfl
      rw [Act.go_bind, hbody]
      exact (hresult (p.finish.go _).1).symm ▸ .returns hstart hwork rfl

end Polls

end Phases

/-- What becomes of a job that is run through some phases after others, whatever the runs return. -/
def through (ps : List (Phases τ α)) (job : Job τ α) : Job τ α :=
  ps.foldl (fun job p => (p.run.go job).2) job

variable {ps : List (Phases τ α)} {p : Phases τ α} {n : Nat}

theorem through_succ (h : ps[n]? = some p) (job : Job τ α) :
    through (ps.take (n + 1)) job = (p.run.go (through (ps.take n) job)).2 := by
  rw [through, List.take_add_one, h, List.foldl_append]
  rfl

/-- The mark of a run that was complete is left: every later run has failed before its last phase. -/
def Left (ps : List (Phases τ α)) (job : Job τ α) (n : Nat) : Prop :=
  ∃ m p, m < n ∧ ps[m]? = some p ∧ p.Returns (through (ps.take m) job) ∧
    (p.ending (through (ps.take m) job)).interrupted = false ∧
    ∀ k q, m < k → k < n → ps[k]? = some q → ¬ q.Returns (through (ps.take k) job)

theorem left_succ_iff (h : ps[n]? = some p) : Left ps job (n + 1) ↔
    p.Returns (through (ps.take n) job) ∧ (p.ending (through (ps.take n) job)).interrupted = false ∨
      ¬ p.Returns (through (ps.take n) job) ∧ Left ps job n := by
  constructor
  · rintro ⟨m, q, hm, hq, hreturns, hgoing, hfail⟩
    rcases Nat.lt_succ_iff_lt_or_eq.1 hm with hm | rfl
    · exact .inr ⟨hfail n p hm (Nat.lt_succ_self n) h, m, q, hm, hq, hreturns, hgoing,
        fun k r hk hkn => hfail k r hk (Nat.lt_succ_of_lt hkn)⟩
    · obtain rfl := Option.some.inj (h.symm.trans hq)
      exact .inl ⟨hreturns, hgoing⟩
  · rintro (⟨hreturns, hgoing⟩ | ⟨hfails, m, q, hm, hq, hreturns, hgoing, hfail⟩)
    · exact ⟨n, p, Nat.lt_succ_self n, h, hreturns, hgoing, fun k q hk hkn => by omega⟩
    · refine ⟨m, q, Nat.lt_succ_of_lt hm, hq, hreturns, hgoing, fun k r hk hkn hr => ?_⟩
      rcases Nat.lt_succ_iff_lt_or_eq.1 hkn with hkn | rfl
      · exact hfail k r hk hkn hr
      · obtain rfl := Option.some.inj (h.symm.trans hr)
        exact hfails

variable (hps : ∀ p ∈ ps, p.Polls out)

include hps

/-- A job that was not complete in the beginning is marked so after some runs when the mark is left. -/
theorem completed_through (hfresh : job.completed = false) (hn : n ≤ ps.length) :
    (through (ps.take n) job).completed = true ↔ Left ps job n := by
  induction n with
  | zero =>
    constructor
    · intro h
      cases hfresh.symm.trans h
    · rintro ⟨m, -, hm, -⟩
      exact absurd hm (Nat.not_lt_zero m)
  | succ n ih =>
    have hp : ps[n]? = some ps[n] := List.getElem?_eq_getElem hn
    have hpolls := hps _ (List.getElem_mem hn)
    rw [through_succ hp, hpolls.completed_last, hpolls.completed_ending, left_succ_iff hp,
      ih (Nat.le_of_lt hn)]

/-- From one run to a later one the job heeds that it is interrupted. -/
theorem heeds_through {i j : Nat} (hij : i ≤ j) :
    Heeds (through (ps.take i) job) (through (ps.take j) job) := by
  induction j, hij using Nat.le_induction with
  | base => exact .refl _
  | succ j _ ih =>
    cases hp : ps[j]? with
    | none =>
      have hend := List.getElem?_eq_none_iff.1 hp
      rw [List.take_of_length_le (Nat.le_succ_of_le hend)]
      rwa [List.take_of_length_le hend] at ih
    | some p =>
      have hpolls := hps p (List.mem_of_getElem? hp)
      rw [through_succ hp]
      exact ih.trans (hpolls.heeds_ending.trans hpolls.heeds_last)

/-- A job is run again and again, and its phases fail or not and ask whether to stop. Every run comes to
its last phase, once and last. A job that is interrupted stays so and is not asked again, within a run and
from run to run. When the last phase of a run begins, the job is marked as complete exactly when the other
phases of this run returned and it is not interrupted, or when they failed and the mark of an earlier run
is left. -/
theorem marks_over_runs (hfresh : job.completed = false) :
    (∀ i j, i ≤ j → Heeds (through (ps.take i) job) (through (ps.take j) job)) ∧
    ∀ n p, ps[n]? = some p →
      let begun := through (ps.take n) job
      (∃ before, p.Goes begun (before ++ [(.finish, p.ending begun)]) (p.run.go begun).1
          (through (ps.take (n + 1)) job) ∧
        ∀ v ∈ before, v.1 ≠ .finish ∧ Heeds v.2 (p.ending begun)) ∧
      Heeds (p.ending begun) (through (ps.take (n + 1)) job) ∧
      ((p.ending begun).completed = true ↔
        p.Returns begun ∧ (p.ending begun).interrupted = false ∨
          ¬ p.Returns begun ∧ Left ps job n) := by
  refine ⟨fun i j hij => heeds_through hps hij, fun n p hp => ?_⟩
  have hpolls := hps p (List.mem_of_getElem? hp)
  have hn : n ≤ ps.length := Nat.le_of_lt (List.getElem?_eq_some_iff.1 hp).1
  dsimp only
  rw [through_succ hp, ← completed_through hps hfresh hn]
  exact ⟨hpolls.goes, hpolls.heeds_last, hpolls.completed_ending⟩

omit hps in
/-- A run that is stopped and fails after one that was complete comes to its end with both marks. -/
theorem marks_over_runs_of_two :
    let out : Outside Rat := { Outside.replying (.http 200 .empty) with stop := fun _ => true }
    let quick : Phases Unit Rat := ⟨scripted out none 0, scripted out none 0, scripted out none 0⟩
    let failing : Phases Unit Rat :=
      ⟨scripted out none 0, scripted out (some (.runtime "fault")) 1, scripted out none 0⟩
    let job : Job Unit Rat := ⟨false, false, (), { clock := 0 }⟩
    let ending := failing.ending (through [quick] job)
    ¬ failing.Returns (through [quick] job) ∧ ending.completed = true ∧ ending.interrupted = true := by
  intro out quick failing job ending
  have hps : ∀ p ∈ [quick, failing], p.Polls out := by
    intro p hp
    rcases List.mem_pair.1 hp with rfl | rfl
    · exact ⟨polls_scripted _ _, polls_scripted _ _, polls_scripted _ _⟩
    · exact ⟨polls_scripted _ _, polls_scripted _ _, polls_scripted _ _⟩
  obtain ⟨-, hruns⟩ := marks_over_runs hps (show job.completed = false from rfl)
  obtain ⟨-, -, hcompleted⟩ := hruns 1 failing rfl
  have hfails : ¬ failing.Returns (through [quick] job) := nofun
  have hleft : Left [quick, failing] job 1 :=
    ⟨0, quick, Nat.one_pos, rfl, rfl, rfl, fun k q hk hkn => by omega⟩
  exact ⟨hfails, hcompleted.2 (.inr ⟨hfails, hleft⟩), rfl⟩

end ProxyCensus.Job
