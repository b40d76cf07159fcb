import ProxyCensus.Checkpoint.Snapshot
import ProxyCensus.Proofs.Act

/-!
# The operations of a flush

A flush as the list of the operations that it does on the disk, each from where the one before it
ended. Main statement: the operations are those that stage all texts and then those that move them
into place; with the first one that fails a flush is over, but for a failed staging, after which the
staged texts are taken away, as far as the disk lets it. It holds for every family of documents and
every disk.
-/

namespace ProxyCensus

namespace Act

variable {σ : Type}

/-- Where computations lead that are run one after another, whatever becomes of each of them. -/
def after (s : σ) (steps : List (Act σ Unit)) : σ :=
  steps.foldl (fun s x => (x.go s).2) s

@[simp] theorem after_nil (s : σ) : after s [] = s := rfl

@[simp] theorem after_cons (s : σ) (x : Act σ Unit) (rest : List (Act σ Unit)) :
    after s (x :: rest) = after (x.go s).2 rest := rfl

@[simp] theorem after_append (s : σ) (xs ys : List (Act σ Unit)) :
    after s (xs ++ ys) = after (after s xs) ys :=
  List.foldl_append

theorem after_take_succ {s : σ} {steps : List (Act σ Unit)} {i : Nat} {x : Act σ Unit}
    (h : steps[i]? = some x) : after s (steps.take (i + 1)) = (x.go (after s (steps.take i))).2 := by
  rw [List.take_add_one, h, after_append]
  rfl

/-- What each of the computations keeps is kept by all of them together. -/
theorem after_rel {R : σ → σ → Prop} (hrefl : ∀ s, R s s)
    (htrans : ∀ {s s' s''}, R s s' → R s' s'' → R s s'') {steps : List (Act σ Unit)}
    (h : ∀ x ∈ steps, ∀ s, R s (x.go s).2) : ∀ s, R s (after s steps) := by
  induction steps with
  | nil => exact hrefl
  | cons x rest ih =>
    intro s
    rw [after_cons]
    exact htrans (h x List.mem_cons_self s) (ih (fun y hy => h y (List.mem_cons_of_mem _ hy)) _)

inductive Succeed : σ → List (Act σ Unit) → Prop
  | nil (s : σ) : Succeed s []
  | cons {s : σ} {x : Act σ Unit} {rest : List (Act σ Unit)} (h : (x.go s).1 = .ok ())
      (hrest : Succeed (x.go s).2 rest) : Succeed s (x :: rest)

/-- Of computations that are run one after another, number `i` is the first that fails. -/
inductive FailsAt : σ → List (Act σ Unit) → Nat → Failure → Prop
  | here {s : σ} {x : Act σ Unit} {rest : List (Act σ Unit)} {f : Failure}
      (h : (x.go s).1 = .error f) : FailsAt s (x :: rest) 0 f
  | later {s : σ} {x : Act σ Unit} {rest : List (Act σ Unit)} {i : Nat} {f : Failure}
      (h : (x.go s).1 = .ok ()) (hrest : FailsAt (x.go s).2 rest i f) : FailsAt s (x :: rest) (i + 1) f

theorem succeed_or_failsAt (steps : List (Act σ Unit)) :
    ∀ s, Succeed s steps ∨ ∃ i f, FailsAt s steps i f := by
  induction steps with
  | nil => exact fun s => .inl (.nil s)
  | cons x rest ih =>
    intro s
    cases h : (x.go s).1 with
    | error f => exact .inr ⟨0, f, .here h⟩
    | ok _ =>
      rcases ih (x.go s).2 with hrest | ⟨i, f, hrest⟩
      · exact .inl (.cons h hrest)
      · exact .inr ⟨i + 1, f, .later h hrest⟩

theorem FailsAt.succeed_take {s : σ} {steps : List (Act σ Unit)} {i : Nat} {f : Failure}
    (h : FailsAt s steps i f) : Succeed s (steps.take i) := by
  induction h with
  | here h => exact .nil _
  | later h _ ih => exact .cons h ih

theorem FailsAt.fails {s : σ} {steps : List (Act σ Unit)} {i : Nat} {f : Failure}
    (h : FailsAt s steps i f) :
    ∃ x, steps[i]? = some x ∧ (x.go (after s (steps.take i))).1 = .error f := by
  induction h with
  | here h => exact ⟨_, rfl, h⟩
  | later h _ ih => exact ih

theorem Succeed.take {s : σ} {steps : List (Act σ Unit)} (h : Succeed s steps) (n : Nat) :
    Succeed s (steps.take n) := by
  induction h generalizing n with
  | nil s => rw [List.take_nil]; exact .nil s
  | cons h _ ih =>
    cases n with
    | zero => exact .nil _
    | succ n => exact .cons h (ih n)

def inTurn : List (Act σ Unit) → Act σ Unit
  | [] => pure ()
  | x :: rest => do
    x
    inTurn rest

theorem go_inTurn_of_succeed {s : σ} {steps : List (Act σ Unit)} (h : Succeed s steps) :
    (inTurn steps).go s = (.ok (), after s steps) := by
  induction h with
  | nil s => rfl
  | cons h _ ih =>
    unfold inTurn
    rw [go_bind_of_ok h]
    exact ih

theorem go_inTurn_of_failsAt {s : σ} {steps : List (Act σ Unit)} {i : Nat} {f : Failure}
    (h : FailsAt s steps i f) :
    (inTurn steps).go s = (.error f, after s (steps.take (i + 1))) := by
  induction h with
  | here h =>
    unfold inTurn
    rw [go_bind_of_error h]
    rfl
  | later h _ ih =>
    unfold inTurn
    rw [go_bind_of_ok h]
    exact ih

end Act

namespace Snapshot

open Act (after Succeed FailsAt)

variable (texts : List (Target × String))

def stagings : List (Act Disk Unit) :=
  texts.map fun t => stage t.1.path t.2

def sweeps : List (Act Disk Unit) :=
  texts.map fun t => Disk.remove (staging t.1.path)

def moves : List (Act Disk Unit) :=
  texts.map fun t => Disk.replace (staging t.1.path) t.1

theorem commitAll_eq : commitAll texts = Act.inTurn (moves texts) := by
  induction texts with
  | nil => rfl
  | cons t rest ih =>
    rw [commitAll, ih]
    rfl

theorem unstage_eq : unstage (texts.map (·.1)) = Act.inTurn (sweeps texts) := by
  induction texts with
  | nil => rfl
  | cons t rest ih =>
    rw [List.map_cons, unstage, ih]
    rfl

variable {texts}

theorem go_stageAll_of_succeed {d : Disk} (staged : List Target) (h : Succeed d (stagings texts)) :
    (stageAll staged texts).go d = (.ok (), after d (stagings texts)) := by
  induction texts generalizing d staged with
  | nil => rfl
  | cons t rest ih =>
    obtain _ | ⟨hok, hrest⟩ := h
    unfold stageAll
    rw [Act.go_bind, Act.go_outcome, hok]
    exact ih _ hrest

/-- When a text is not staged, those before it are to be taken away, unless the failure is none of the
operating system's. -/
theorem go_stageAll_of_failsAt {d : Disk} {i : Nat} {f : Failure} (before : List (Target × String))
    (h : FailsAt d (stagings texts) i f) :
    (stageAll (before.map (·.1)) texts).go d =
      ((if f.isSystem then Act.inTurn (sweeps (before ++ texts.take i)) else pure ()) >>= fun _ =>
        throw f : Act Disk Unit).go (after d ((stagings texts).take (i + 1))) := by
  induction texts generalizing d before i with
  | nil => cases h
  | cons t rest ih =>
    cases h with
    | here herror =>
      unfold stageAll
      rw [Act.go_bind, Act.go_outcome, herror]
      dsimp only
      cases f.isSystem <;> simp [stagings, unstage_eq]
    | later hok hrest =>
      have hih := ih (before ++ [t]) hrest
      unfold stageAll
      rw [Act.go_bind, Act.go_outcome, hok]
      dsimp only
      rw [List.map_append] at hih
      refine hih.trans ?_
      simp [stagings]

/-- The operations of a flush and its result. -/
inductive Course (d : Disk) (texts : List (Target × String)) :
    List (Act Disk Unit) → Except Failure Unit → Prop
  | unstaged {i : Nat} {f : Failure} (h : FailsAt d (stagings texts) i f)
      (hswept : f.isSystem = true →
        Succeed (after d ((stagings texts).take (i + 1))) (sweeps (texts.take i))) :
      Course d texts ((stagings texts).take (i + 1) ++
        if f.isSystem then sweeps (texts.take i) else []) (.error f)
  | unswept {i k : Nat} {f g : Failure} (h : FailsAt d (stagings texts) i f)
      (hsystem : f.isSystem = true)
      (hrefused : FailsAt (after d ((stagings texts).take (i + 1))) (sweeps (texts.take i)) k g) :
      Course d texts ((stagings texts).take (i + 1) ++ (sweeps (texts.take i)).take (k + 1)) (.error g)
  | unmoved {i : Nat} {f : Failure} (hstaged : Succeed d (stagings texts))
      (h : FailsAt (after d (stagings texts)) (moves texts) i f) :
      Course d texts (stagings texts ++ (moves texts).take (i + 1)) (.error f)
  | done (hstaged : Succeed d (stagings texts))
      (h : Succeed (after d (stagings texts)) (moves texts)) :
      Course d texts (stagings texts ++ moves texts) (.ok ())

/-- A flush that cannot stage all texts takes its course. -/
theorem course_of_failsAt {d : Disk} {i : Nat} {f : Failure} (h : FailsAt d (stagings texts) i f) :
    ∃ steps g, Course d texts steps (.error g) ∧
      (stageAll [] texts).go d = (.error g, after d steps) := by
  have hgo := go_stageAll_of_failsAt [] h
  rw [List.map_nil, List.nil_append] at hgo
  rw [hgo]
  cases hsystem : f.isSystem with
  | false =>
    have hcourse := Course.unstaged h fun hs => absurd (hsystem.symm.trans hs) Bool.false_ne_true
    rw [hsystem, if_neg Bool.false_ne_true, List.append_nil] at hcourse
    exact ⟨_, f, hcourse, rfl⟩
  | true =>
    rw [if_pos rfl]
    rcases Act.succeed_or_failsAt (sweeps (texts.take i)) (after d ((stagings texts).take (i + 1)))
      with hswept | ⟨k, g, hrefused⟩
    · have hcourse := Course.unstaged h fun _ => hswept
      rw [hsystem, if_pos rfl] at hcourse
      rw [Act.go_bind, Act.go_inTurn_of_succeed hswept]
      exact ⟨_, f, hcourse, by rw [Act.after_append]; rfl⟩
    · rw [Act.go_bind, Act.go_inTurn_of_failsAt hrefused]
      exact ⟨_, g, .unswept h hsystem hrefused, by rw [Act.after_append]⟩

/-- Every flush of documents that have texts takes its course. -/
theorem flush_course {folder : Path} {docs : List (String × Document)} (d : Disk)
    (h : renderAll folder docs = .ok texts) :
    ∃ steps, Course d texts steps ((flush folder docs).go d).1 ∧
      ((flush folder docs).go d).2 = after d steps := by
  have hgo : (flush folder docs).go d = (stageAll [] texts >>= fun _ => commitAll texts).go d := by
    unfold flush
    rw [h]
    rfl
  rw [hgo]
  rcases Act.succeed_or_failsAt (stagings texts) d with hstaged | ⟨i, f, hstaged⟩
  · rw [Act.go_bind, go_stageAll_of_succeed [] hstaged, commitAll_eq]
    dsimp only
    rcases Act.succeed_or_failsAt (moves texts) (after d (stagings texts)) with hmoved | ⟨i, f, hmoved⟩
    · rw [Act.go_inTurn_of_succeed hmoved]
      exact ⟨_, .done hstaged hmoved, (Act.after_append ..).symm⟩
    · rw [Act.go_inTurn_of_failsAt hmoved]
      exact ⟨_, .unmoved hstaged hmoved, (Act.after_append ..).symm⟩
  · obtain ⟨steps, g, hcourse, hgo⟩ := course_of_failsAt hstaged
    rw [Act.go_bind, hgo]
    exact ⟨steps, hcourse, rfl⟩

end Snapshot

end ProxyCensus
