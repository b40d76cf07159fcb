import ProxyCensus.Corpus
import ProxyCensus.Proofs.Checkpoint.Shown

/-!
# Attempts

What a job does that others can tell and that may fail: it puts a question to the corpus, or it writes
its files. Main statements: computations that make attempts until one of them fails can be put together
from their steps, and after attempts a folder shows what was written last.
-/

namespace ProxyCensus

namespace Act

variable {σ γ : Type} {part : σ → γ} {s : σ} {steps : List (Act σ Unit)} {r : Except Failure Unit}

/-- The result of a computation and what it makes of a part of the state depend on that part alone. -/
def GoesBy (part : σ → γ) (x : Act σ Unit) : Prop :=
  ∀ s s', part s = part s' → (x.go s).1 = (x.go s').1 ∧ part (x.go s).2 = part (x.go s').2

theorem after_goesBy (hsteps : ∀ x ∈ steps, GoesBy part x) :
    ∀ {s s' : σ}, part s = part s' → part (after s steps) = part (after s' steps) := by
  induction steps with
  | nil => exact id
  | cons x rest ih =>
    intro s s' hpart
    obtain ⟨hx, hrest⟩ := List.forall_mem_cons.1 hsteps
    exact ih hrest (hx s s' hpart).2

/-- What comes last decides where a computation ends, and it raises its own failure rather than an
earlier one. -/
theorem andFinally_cases {x : Act σ Unit} (last : Act σ Unit) {s₁ : σ} (h : x.go s = (r, s₁)) :
    ((x.andFinally last).go s).2 = (last.go s₁).2 ∧
      ∀ f, ((x.andFinally last).go s).1 = .error f ↔
        (last.go s₁).1 = .error f ∨ (last.go s₁).1 = .ok () ∧ r = .error f := by
  unfold andFinally
  rw [go_of, h]
  dsimp only
  rcases last.go s₁ with ⟨r', s₂⟩
  cases r' <;> simp

/-- Computations are run one after another until one of them fails, which is the last one. -/
inductive Ends : σ → List (Act σ Unit) → Except Failure Unit → Prop
  | nil (s : σ) : Ends s [] (.ok ())
  | failed {s : σ} {x : Act σ Unit} {f : Failure} (h : (x.go s).1 = .error f) : Ends s [x] (.error f)
  | cons {s : σ} {x : Act σ Unit} {rest : List (Act σ Unit)} {r : Except Failure Unit}
      (h : (x.go s).1 = .ok ()) (hrest : Ends (x.go s).2 rest r) : Ends s (x :: rest) r

theorem Ends.goesBy (h : Ends s steps r) (hsteps : ∀ x ∈ steps, GoesBy part x) :
    ∀ {s' : σ}, part s = part s' → Ends s' steps r := by
  induction h with
  | nil s => exact fun _ => .nil _
  | @failed s x f h =>
    intro s' hpart
    have hx := hsteps x List.mem_cons_self s s' hpart
    exact .failed (hx.1.symm.trans h)
  | @cons s x rest r h _ ih =>
    intro s' hpart
    obtain ⟨hx, hrest⟩ := List.forall_mem_cons.1 hsteps
    obtain ⟨hresult, hpart⟩ := hx s s' hpart
    exact .cons (hresult.symm.trans h) (ih hrest hpart)

theorem Ends.append {later : List (Act σ Unit)} (h : Ends s steps (.ok ()))
    (hlater : Ends (after s steps) later r) : Ends s (steps ++ later) r := by
  generalize hok : (Except.ok () : Except Failure Unit) = first at h
  induction h with
  | nil s => exact hlater
  | failed h => cases hok
  | cons h _ ih => exact .cons h (ih hlater hok)

/-- With one more computation in the end, the first failure is the one that ended the others, or else
that of the last one. -/
theorem Ends.failsAt_concat_iff (h : Ends s steps r) {x : Act σ Unit} {f : Failure} :
    (∃ i, FailsAt s (steps ++ [x]) i f) ↔
      r = .error f ∨ r = .ok () ∧ (x.go (after s steps)).1 = .error f := by
  induction h with
  | nil s =>
    constructor
    · rintro ⟨i, hfails⟩
      cases hfails with
      | here h => exact .inr ⟨rfl, h⟩
      | later _ hrest => cases hrest
    · rintro (h | ⟨-, h⟩)
      · cases h
      · exact ⟨0, .here h⟩
  | @failed s y g h =>
    constructor
    · rintro ⟨i, hfails⟩
      cases hfails with
      | here h' => exact .inl (h.symm.trans h')
      | later h' _ => cases h.symm.trans h'
    · rintro (h' | ⟨h', -⟩)
      · exact ⟨0, .here (h.trans h')⟩
      · cases h'
  | @cons s y rest r h _ ih =>
    rw [after_cons, ← ih]
    constructor
    · rintro ⟨i, hfails⟩
      cases hfails with
      | here h' => cases h.symm.trans h'
      | later _ hrest => exact ⟨_, hrest⟩
    · rintro ⟨i, hfails⟩
      exact ⟨i + 1, .later h hfails⟩

end Act

open Act (after Ends FailsAt GoesBy)
open Snapshot (PlainFamily Shown Unblocked)

/-- What a job does that may fail: it puts a question to the corpus, or it replaces its files unless it
fails to make the documents. -/
inductive Attempt where
  | query (q : Query)
  | flush (docs : Except Failure (List (String × Document)))

variable {α : Type} (out : Outside α) (folder : Folder)

/-- What a job has asked and written. -/
def Journal.outward (j : Journal α) :=
  (j.queries, j.disk, j.flushes, j.flushed, j.flushCalls)

namespace Attempt

def act : Attempt → Act (Journal α) Unit
  | query q => Corpus.query out q
  | flush docs => do Journal.flush out folder (← Act.lift docs)

def flushed? (j : Journal α) : Attempt → Option (List (String × Document))
  | query _ => none
  | flush (.error _) => none
  | flush (.ok docs) => if ((Journal.flush out folder docs).go j).1.isOk then some docs else none

/-- The documents of the last flush that succeeds when attempts are made one after another. -/
def lastFlushed (j : Journal α) : List Attempt → Option (List (String × Document))
  | [] => none
  | a :: rest => (lastFlushed ((a.act out folder).go j).2 rest).or (a.flushed? out folder j)

theorem go_query_cases (q : Query) (j : Journal α) : ∃ logs stopped, (Corpus.query out q).go j =
    (match out.disturbance j.queries.size with | some (.fault f) => .error f | _ => .ok (),
      { j with queries := j.queries.push q, logs := logs, stopped := stopped }) := by
  unfold Corpus.query
  rw [Act.go_bind, Act.go_state]
  dsimp only
  rw [Act.go_bind, Act.go_change]
  dsimp only
  cases out.disturbance j.queries.size with
  | none => exact ⟨_, _, rfl⟩
  | some d => cases d <;> exact ⟨_, _, rfl⟩

theorem goesBy_query (q : Query) : GoesBy Journal.outward (Corpus.query out q) := by
  intro j j' h
  simp only [Journal.outward, Prod.mk.injEq] at h
  obtain ⟨hqueries, hdisk, hflushes, hflushed, hcalls⟩ := h
  obtain ⟨logs, stopped, hgo⟩ := go_query_cases out q j
  obtain ⟨logs', stopped', hgo'⟩ := go_query_cases out q j'
  rw [hgo, hgo', hqueries]
  simp [Journal.outward, *]

theorem goesBy_flush (docs : List (String × Document)) :
    GoesBy Journal.outward (Journal.flush out folder docs) := by
  intro j j' h
  simp only [Journal.outward, Prod.mk.injEq] at h
  obtain ⟨hqueries, hdisk, hflushes, hflushed, hcalls⟩ := h
  cases hrefused : out.flushFault j'.flushCalls with
  | some f =>
    rw [Journal.go_flush_of_refused hrefused, Journal.go_flush_of_refused (hcalls ▸ hrefused)]
    simp [Journal.outward, *]
  | none =>
    cases hinner : (Snapshot.flush folder.path docs).go j'.disk with
    | mk r d =>
      cases r with
      | ok _ =>
        rw [Journal.go_flush hrefused hinner, Journal.go_flush (hcalls ▸ hrefused) (hdisk ▸ hinner)]
        simp [Journal.outward, Journal.saved, *]
      | error f =>
        rw [Journal.go_flush_of_failed hrefused hinner,
          Journal.go_flush_of_failed (hcalls ▸ hrefused) (hdisk ▸ hinner)]
        simp [Journal.outward, *]

theorem goesBy (a : Attempt) : GoesBy Journal.outward (a.act out folder : Act (Journal α) Unit) := by
  cases a with
  | query q => exact goesBy_query out q
  | flush docs =>
    cases docs with
    | ok docs => exact goesBy_flush out folder docs
    | error f => exact fun j j' h => ⟨rfl, h⟩

theorem go_flush_cases (docs : List (String × Document)) (j : Journal α) :
    ∃ r disk flushes flushed logs, (Journal.flush out folder docs).go j = (r, { j with
      flushCalls := j.flushCalls + 1
      disk := disk
      flushes := flushes
      flushed := flushed
      logs := logs }) := by
  cases hrefused : out.flushFault j.flushCalls with
  | some f => exact ⟨_, j.disk, _, j.flushed, j.logs, Journal.go_flush_of_refused hrefused⟩
  | none =>
    cases hinner : (Snapshot.flush folder.path docs).go j.disk with
    | mk r d =>
      cases r with
      | ok _ => exact ⟨_, _, _, _, _, Journal.go_flush hrefused hinner⟩
      | error f => exact ⟨_, _, j.flushes, j.flushed, j.logs, Journal.go_flush_of_failed hrefused hinner⟩

theorem queries_flush (docs : Except Failure (List (String × Document))) (j : Journal α) :
    (((flush docs).act out folder).go j).2.queries = j.queries := by
  cases docs with
  | error f => rfl
  | ok docs =>
    obtain ⟨r, disk, flushes, flushed, logs, hgo⟩ := go_flush_cases out folder docs j
    exact congrArg (·.2.queries) hgo

theorem stopwatches_act (a : Attempt) (j : Journal α) :
    ((a.act out folder).go j).2.stopwatches = j.stopwatches := by
  cases a with
  | query q =>
    obtain ⟨logs, stopped, hgo⟩ := go_query_cases out q j
    exact congrArg (·.2.stopwatches) hgo
  | flush docs =>
    cases docs with
    | error f => rfl
    | ok docs =>
      obtain ⟨r, disk, flushes, flushed, logs, hgo⟩ := go_flush_cases out folder docs j
      exact congrArg (·.2.stopwatches) hgo

theorem shown_flushed? {names : List String} (hfamily : PlainFamily names) {a : Attempt}
    (hnames : ∀ docs, a = flush (.ok docs) → docs.map (·.1) = names) {j : Journal α}
    (hfree : Unblocked folder.path names j.disk) :
    Shown folder.path names j.disk (a.flushed? out folder j) ((a.act out folder).go j).2.disk ∧
      Unblocked folder.path names ((a.act out folder).go j).2.disk := by
  cases a with
  | query q =>
    obtain ⟨logs, stopped, hgo⟩ := go_query_cases out q j
    simp only [flushed?, act, hgo]
    exact ⟨.refl .., hfree⟩
  | flush docs =>
    cases docs with
    | error f => exact ⟨.refl .., hfree⟩
    | ok docs =>
      obtain rfl := hnames docs rfl
      exact Journal.flush_shown out folder hfamily hfree

/-- After attempts a folder shows what was written last. -/
theorem shown_lastFlushed {names : List String} (hfamily : PlainFamily names)
    {tries : List Attempt} (hnames : ∀ docs, flush (.ok docs) ∈ tries → docs.map (·.1) = names) :
    ∀ {j : Journal α}, Unblocked folder.path names j.disk →
      Shown folder.path names j.disk (lastFlushed out folder j tries)
        (after j (tries.map (act out folder))).disk := by
  induction tries with
  | nil => exact fun _ => .refl ..
  | cons a rest ih =>
    intro j hfree
    obtain ⟨hshown, hfree'⟩ := shown_flushed? out folder hfamily
      (fun docs hdocs => hnames docs (hdocs ▸ List.mem_cons_self)) hfree
    exact hshown.trans (ih (fun docs hdocs => hnames docs (List.mem_cons_of_mem _ hdocs)) hfree')

end Attempt

variable {out folder} {Whole : Except Failure (List (String × Document)) → Prop}

/-- From one journal to another a job has made attempts, one after another until one of them failed, and
nothing else that others can tell. What it flushed was whole. -/
structure Made (out : Outside α) (folder : Folder)
    (Whole : Except Failure (List (String × Document)) → Prop) (j : Journal α) (tries : List Attempt)
    (r : Except Failure Unit) (j' : Journal α) : Prop where
  ends : Ends j (tries.map (Attempt.act out folder)) r
  outward : j'.outward = (after j (tries.map (Attempt.act out folder))).outward
  whole : ∀ docs, .flush docs ∈ tries → Whole docs

namespace Made

variable {j j₁ j' : Journal α} {tries later : List Attempt} {r : Except Failure Unit}

theorem quiet (h : j'.outward = j.outward) : Made out folder Whole j [] (.ok ()) j' :=
  ⟨.nil j, h, fun _ hdocs => by cases hdocs⟩

theorem attempt (out : Outside α) (folder : Folder) (j : Journal α) {a : Attempt}
    (ha : ∀ docs, a = .flush docs → Whole docs) :
    Made out folder Whole j [a] ((a.act out folder).go j).1 ((a.act out folder).go j).2 := by
  refine ⟨?_, rfl, fun docs hdocs => ha docs (List.mem_singleton.1 hdocs).symm⟩
  cases h : ((a.act out folder).go j).1 with
  | ok _ => exact .cons h (.nil _)
  | error f => exact .failed h

theorem act_goesBy (tries : List Attempt) :
    ∀ x ∈ tries.map (Attempt.act out folder), GoesBy (Journal.outward (α := α)) x := by
  intro x hx
  obtain ⟨a, -, rfl⟩ := List.mem_map.1 hx
  exact a.goesBy out folder

theorem trans (h : Made out folder Whole j tries (.ok ()) j₁)
    (h' : Made out folder Whole j₁ later r j') : Made out folder Whole j (tries ++ later) r j' := by
  refine ⟨?_, ?_, fun docs hdocs => ?_⟩
  · rw [List.map_append]
    exact h.ends.append (h'.ends.goesBy (act_goesBy later) h.outward)
  · rw [List.map_append, Act.after_append, h'.outward]
    exact Act.after_goesBy (act_goesBy later) h.outward
  · rcases List.mem_append.1 hdocs with hdocs | hdocs
    · exact h.whole docs hdocs
    · exact h'.whole docs hdocs

theorem then_quiet (h : Made out folder Whole j tries r j₁) (hquiet : j'.outward = j₁.outward) :
    Made out folder Whole j tries r j' :=
  ⟨h.ends, hquiet.trans h.outward, h.whole⟩

end Made

theorem map_unit (r : Except Failure Unit) : r.map (fun _ => ()) = r := by
  cases r <;> rfl

/-- A computation from a state makes attempts until one of them fails; `Done` holds of its result and of
where it ends, or `Failed` of where it has failed. -/
def Tries {σ β : Type} (out : Outside α) (folder : Folder)
    (Whole : Except Failure (List (String × Document)) → Prop) (view : σ → Journal α)
    (Failed : σ → Prop) (x : Act σ β) (s : σ) (Done : β → σ → Prop) : Prop :=
  ∃ tries, Made out folder Whole (view s) tries ((x.go s).1.map fun _ => ()) (view (x.go s).2) ∧
    (∀ b, (x.go s).1 = .ok b → Done b (x.go s).2) ∧ ∀ f, (x.go s).1 = .error f → Failed (x.go s).2

namespace Tries

variable {σ β γ : Type} {view : σ → Journal α} {Failed : σ → Prop} {s s' : σ}

theorem of_go {x : Act σ β} {b : β} {Done : β → σ → Prop} (hgo : x.go s = (.ok b, s'))
    (hquiet : (view s').outward = (view s).outward) (h : Done b s') :
    Tries out folder Whole view Failed x s Done := by
  refine ⟨[], ?_⟩
  rw [hgo]
  refine ⟨.quiet hquiet, fun b' hb => ?_, fun f hf => by cases hf⟩
  obtain rfl := Except.ok.inj hb
  exact h

theorem pure {b : β} {Done : β → σ → Prop} (h : Done b s) :
    Tries out folder Whole view Failed (Pure.pure b) s Done :=
  of_go rfl rfl h

theorem attempt {x : Act σ β} {a : Attempt} {Done : β → σ → Prop}
    (hresult : (x.go s).1.map (fun _ => ()) = ((a.act out folder).go (view s)).1)
    (hview : view (x.go s).2 = ((a.act out folder).go (view s)).2)
    (ha : ∀ docs, a = .flush docs → Whole docs) (hdone : ∀ b, (x.go s).1 = .ok b → Done b (x.go s).2)
    (hfailed : Failed (x.go s).2) : Tries out folder Whole view Failed x s Done := by
  refine ⟨[a], ?_, hdone, fun _ _ => hfailed⟩
  rw [hresult, hview]
  exact .attempt out folder (view s) ha

theorem bind {x : Act σ β} {f : β → Act σ γ} {Mid : β → σ → Prop} {Done : γ → σ → Prop}
    (hx : Tries out folder Whole view Failed x s Mid)
    (hf : ∀ b s', Mid b s' → Tries out folder Whole view Failed (f b) s' Done) :
    Tries out folder Whole view Failed (x >>= f) s Done := by
  obtain ⟨tries, hmade, hdone, hfailed⟩ := hx
  -- After a failure of the first computation the second makes no attempt at all.
  cases h : (x.go s).1 with
  | error g =>
    refine ⟨tries, ?_⟩
    rw [Act.go_bind_of_error h]
    rw [h] at hmade
    exact ⟨hmade, fun b hb => (by cases hb), fun _ _ => hfailed g h⟩
  | ok b =>
    obtain ⟨later, hlater, hend⟩ := hf b _ (hdone b h)
    refine ⟨tries ++ later, ?_⟩
    rw [Act.go_bind_of_ok h]
    rw [h] at hmade
    exact ⟨hmade.trans hlater, hend⟩

theorem mono {x : Act σ β} {Done Done' : β → σ → Prop}
    (h : Tries out folder Whole view Failed x s Done) (hdone : ∀ b s', Done b s' → Done' b s') :
    Tries out folder Whole view Failed x s Done' := by
  obtain ⟨tries, hmade, hend, hfailed⟩ := h
  exact ⟨tries, hmade, fun b hb => hdone b _ (hend b hb), hfailed⟩

theorem after_go {x : Act σ β} {f : β → Act σ γ} {b : β} {Done : γ → σ → Prop}
    (hgo : x.go s = (.ok b, s')) (hquiet : (view s').outward = (view s).outward)
    (h : Tries out folder Whole view Failed (f b) s' Done) :
    Tries out folder Whole view Failed (x >>= f) s Done := by
  have hx : Tries out folder Whole view Failed x s fun b' s'' => b' = b ∧ s'' = s' :=
    of_go hgo hquiet ⟨rfl, rfl⟩
  refine hx.bind fun b' s'' ⟨hb, hs⟩ => ?_
  rw [hb, hs]
  exact h

/-- With a last step that makes no attempt and changes nothing that counts. -/
theorem andFinally {x : Act σ β} {last : Act σ Unit} {Done : β → σ → Prop}
    (h : Tries out folder Whole view Failed x s Done)
    (hlast : ∀ s', ∃ s'', last.go s' = (.ok (), s'') ∧ (view s'').outward = (view s').outward ∧
      (∀ b, Done b s' → Done b s'') ∧ (Failed s' → Failed s'')) :
    Tries out folder Whole view Failed (x.andFinally last) s Done := by
  obtain ⟨tries, hmade, hdone, hfailed⟩ := h
  obtain ⟨s'', hgo, hquiet, hkeeps, hkeepsFailed⟩ := hlast (x.go s).2
  refine ⟨tries, ?_⟩
  rw [Act.go_andFinally (Prod.eta _).symm hgo]
  exact ⟨hmade.then_quiet hquiet, fun b hb => hkeeps b (hdone b hb),
    fun f hf => hkeepsFailed (hfailed f hf)⟩

end Tries

end ProxyCensus
