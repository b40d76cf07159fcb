import ProxyCensus.Failure

/-!
# Acts

Computations that change a state and may fail. The state survives a failure, so what was done before
it stays done.
-/

namespace ProxyCensus

/-- A computation over a state that may fail. -/
abbrev Act (σ α : Type) := ExceptT Failure (StateM σ) α

namespace Act

variable {σ τ α β : Type}

/-- What becomes of a computation that starts from a state. -/
def go (x : Act σ α) (s : σ) : Except Failure α × σ :=
  x s

def of (f : σ → Except Failure α × σ) : Act σ α :=
  f

def lift (r : Except Failure α) : Act σ α :=
  of fun s => (r, s)

def on (get : σ → τ) (set : σ → τ → σ) (x : Act τ α) : Act σ α :=
  of fun s =>
    let (r, t) := x.go (get s)
    (r, set s t)

/-- Runs a computation and hands over its outcome instead of failing. -/
def outcome (x : Act σ α) : Act σ (Except Failure α) :=
  of fun s =>
    let (r, s) := x.go s
    (.ok r, s)

/-- Runs `last` after `x`, whatever becomes of `x`. Of two failures the later one counts. -/
def andFinally (x : Act σ α) (last : Act σ Unit) : Act σ α :=
  of fun s =>
    let (r, s) := x.go s
    match last.go s with
    | (.ok _, s) => (r, s)
    | (.error e, s) => (.error e, s)

def change (f : σ → σ) : Act σ Unit :=
  of fun s => (.ok (), f s)

def state : Act σ σ :=
  of fun s => (.ok s, s)

@[simp] theorem go_of (f : σ → Except Failure α × σ) (s : σ) : (of f).go s = f s := rfl

@[simp] theorem go_pure (a : α) (s : σ) : (pure a : Act σ α).go s = (.ok a, s) := rfl

@[simp] theorem go_throw (e : Failure) (s : σ) :
    (throw e : Act σ α).go s = (.error e, s) := rfl

@[simp] theorem go_lift (r : Except Failure α) (s : σ) : (lift r : Act σ α).go s = (r, s) := rfl

@[simp] theorem go_change (f : σ → σ) (s : σ) : (change f).go s = (.ok (), f s) := rfl

@[simp] theorem go_state (s : σ) : (state : Act σ σ).go s = (.ok s, s) := rfl

/-- The second of two steps starts from where the first one ended, and only if it succeeded. -/
theorem go_bind (x : Act σ α) (f : α → Act σ β) (s : σ) :
    (x >>= f).go s = match x.go s with
      | (.ok a, s) => (f a).go s
      | (.error e, s) => (.error e, s) := by
  simp only [go, bind, ExceptT.bind, ExceptT.mk, StateT.bind, ExceptT.bindCont]
  rcases x s with ⟨r, s'⟩
  cases r <;> rfl

theorem go_outcome (x : Act σ α) (s : σ) : x.outcome.go s = (.ok (x.go s).1, (x.go s).2) := rfl

theorem go_on (get : σ → τ) (set : σ → τ → σ) (x : Act τ α) (s : σ) :
    (on get set x).go s = ((x.go (get s)).1, set s (x.go (get s)).2) := rfl

theorem go_bind_of_ok {x : Act σ α} {f : α → Act σ β} {s : σ} {a : α} (h : (x.go s).1 = .ok a) :
    (x >>= f).go s = (f a).go (x.go s).2 := by
  rw [go_bind]
  generalize x.go s = out at h ⊢
  obtain ⟨r, s'⟩ := out
  subst h
  rfl

theorem go_bind_of_error {x : Act σ α} {f : α → Act σ β} {s : σ} {e : Failure}
    (h : (x.go s).1 = .error e) : (x >>= f).go s = (.error e, (x.go s).2) := by
  rw [go_bind]
  generalize x.go s = out at h ⊢
  obtain ⟨r, s'⟩ := out
  subst h
  rfl

end Act

end ProxyCensus
