import ProxyCensus.Act

/-!
# What computations keep and yield

A part of the state that a computation leaves as it was, also when it fails; a part by which two
computations are alike; and what holds of every result that a computation returns. Each of these comes
together from the steps of a computation.
-/

namespace ProxyCensus

theorem eq_ok_of_toOption {ε α : Type} {r : Except ε α} {a : α} (h : r.toOption = some a) :
    r = .ok a := by
  cases r with
  | ok b => rw [Option.some.inj h]
  | error e => cases h

theorem bind_eq_ok_iff {ε α β : Type} {x : Except ε α} {f : α → Except ε β} {b : β} :
    (x >>= f) = .ok b ↔ ∃ a, x = .ok a ∧ f a = .ok b := by
  constructor
  · intro h
    cases x with
    | error e => cases h
    | ok a => exact ⟨a, rfl, h⟩
  · rintro ⟨a, rfl, h⟩
    exact h

theorem bind_eq_error_iff {ε α β : Type} {x : Except ε α} {f : α → Except ε β} {e : ε} :
    (x >>= f) = .error e ↔ x = .error e ∨ ∃ a, x = .ok a ∧ f a = .error e := by
  constructor
  · intro h
    cases x with
    | error e' => exact .inl (congrArg Except.error (Except.error.inj h))
    | ok a => exact .inr ⟨a, rfl, h⟩
  · rintro (rfl | ⟨a, rfl, h⟩)
    · rfl
    · exact h

/-- Two steps succeed when both do, the second one from where the first one ended. -/
theorem Act.go_bind_eq_ok {σ α β : Type} {x : Act σ α} {f : α → Act σ β} {s s' : σ} {b : β}
    (h : (x >>= f).go s = (.ok b, s')) :
    ∃ a s₁, x.go s = (.ok a, s₁) ∧ (f a).go s₁ = (.ok b, s') := by
  rw [go_bind] at h
  generalize x.go s = result at h
  obtain ⟨r, s₁⟩ := result
  cases r with
  | ok a => exact ⟨a, s₁, rfl, h⟩
  | error e => cases h

theorem Act.go_andFinally {σ α : Type} {x : Act σ α} {last : Act σ Unit} {s s₁ s₂ : σ}
    {r : Except Failure α} (hx : x.go s = (r, s₁)) (hlast : last.go s₁ = (.ok (), s₂)) :
    (x.andFinally last).go s = (r, s₂) := by
  unfold andFinally
  rw [go_of, hx]
  dsimp only
  rw [hlast]

/-- A computation returns that has another one behind it in any case, when both return. -/
theorem Act.go_andFinally_eq_ok {σ α : Type} {x : Act σ α} {last : Act σ Unit} {s s₂ : σ} {a : α}
    (h : (x.andFinally last).go s = (.ok a, s₂)) :
    ∃ s₁, x.go s = (.ok a, s₁) ∧ last.go s₁ = (.ok (), s₂) := by
  unfold andFinally at h
  rw [go_of] at h
  rcases hx : x.go s with ⟨r, s₁⟩
  rw [hx] at h
  rcases hlast : last.go s₁ with ⟨_ | _, s'⟩
  · simp [hlast] at h
  · simp only [hlast, Prod.mk.injEq] at h
    obtain ⟨rfl, rfl⟩ := h
    exact ⟨s₁, rfl, hlast⟩

/-- A computation that keeps a part of the state, also when it fails. -/
def Act.Keeps {σ α γ : Type} (part : σ → γ) (x : Act σ α) : Prop :=
  ∀ s, part (x.go s).2 = part s

namespace Act.Keeps

variable {σ τ α β γ : Type} {part : σ → γ}

theorem of_go {x : Act σ α} (hx : Keeps part x) {s s' : σ} {r : Except Failure α}
    (h : x.go s = (r, s')) : part s' = part s := by
  rw [← hx s, h]

theorem pure (a : α) : Keeps part (Pure.pure a : Act σ α) := fun _ => rfl

theorem throw (e : Failure) : Keeps part (MonadExcept.throw e : Act σ α) := fun _ => rfl

theorem lift (r : Except Failure α) : Keeps part (Act.lift r : Act σ α) := fun _ => rfl

theorem state : Keeps part (Act.state : Act σ σ) := fun _ => rfl

theorem change {f : σ → σ} (h : ∀ s, part (f s) = part s) : Keeps part (Act.change f) := h

theorem bind {x : Act σ α} {f : α → Act σ β} (hx : Keeps part x) (hf : ∀ a, Keeps part (f a)) :
    Keeps part (x >>= f) := by
  intro s
  have hs := hx s
  rw [Act.go_bind]
  generalize x.go s = result at hs
  obtain ⟨r, s'⟩ := result
  cases r with
  | ok a => exact (hf a s').trans hs
  | error e => exact hs

theorem throw_bind (e : Failure) (f : α → Act σ β) :
    Keeps part ((MonadExcept.throw e : Act σ α) >>= f) := fun _ => rfl

theorem outcome {x : Act σ α} (hx : Keeps part x) : Keeps part x.outcome :=
  hx

theorem on {get : σ → τ} {set : σ → τ → σ} {x : Act τ α} {inner : τ → β} (hx : Keeps inner x)
    (h : ∀ s t, inner t = inner (get s) → part (set s t) = part s) :
    Keeps part (Act.on get set x) :=
  fun s => h s _ (hx (get s))

theorem andFinally {x : Act σ α} {last : Act σ Unit} (hx : Keeps part x) (hlast : Keeps part last) :
    Keeps part (x.andFinally last) := by
  intro s
  have hend := (hlast (x.go s).2).trans (hx s)
  unfold Act.andFinally
  rw [go_of]
  dsimp only
  generalize last.go (x.go s).2 = ended at hend
  obtain ⟨r, s'⟩ := ended
  cases r with
  | ok _ => exact hend
  | error e => exact hend

end Act.Keeps

/-- Two computations that are alike by a part of the state: from states that agree in it they come to
states that agree in it, with the same result. -/
def Act.Alike {σ α γ : Type} (part : σ → γ) (x y : Act σ α) : Prop :=
  ∀ s s', part s = part s' → (x.go s).1 = (y.go s').1 ∧ part (x.go s).2 = part (y.go s').2

namespace Act.Alike

variable {σ τ α β γ δ : Type} {part : σ → γ}

theorem pure (a : α) : Alike part (Pure.pure a : Act σ α) (Pure.pure a) := fun _ _ h => ⟨rfl, h⟩

theorem throw (e : Failure) : Alike part (MonadExcept.throw e : Act σ α) (MonadExcept.throw e) :=
  fun _ _ h => ⟨rfl, h⟩

theorem lift (r : Except Failure α) : Alike part (Act.lift r : Act σ α) (Act.lift r) :=
  fun _ _ h => ⟨rfl, h⟩

theorem change {f g : σ → σ} (h : ∀ s s', part s = part s' → part (f s) = part (g s')) :
    Alike part (Act.change f) (Act.change g) :=
  fun s s' hpart => ⟨rfl, h s s' hpart⟩

/-- Computations that keep the part are alike when what they return does not depend on the state. -/
theorem of_keeps {x y : Act σ α} (hx : Keeps part x) (hy : Keeps part y)
    (h : ∀ s s', (x.go s).1 = (y.go s').1) : Alike part x y :=
  fun s s' hpart => ⟨h s s', (hx s).trans (hpart.trans (hy s').symm)⟩

theorem bind {x y : Act σ α} {f g : α → Act σ β} (hx : Alike part x y)
    (hf : ∀ a, Alike part (f a) (g a)) : Alike part (x >>= f) (y >>= g) := by
  intro s s' hpart
  obtain ⟨hresult, hend⟩ := hx s s' hpart
  cases h : (x.go s).1 with
  | ok a =>
    rw [go_bind_of_ok h, go_bind_of_ok (hresult.symm.trans h)]
    exact hf a _ _ hend
  | error e =>
    rw [go_bind_of_error h, go_bind_of_error (hresult.symm.trans h)]
    exact ⟨rfl, hend⟩

/-- What two computations do may depend on the states in which they begin. -/
theorem bind_state {f g : σ → Act σ α}
    (h : ∀ s s', part s = part s' → Alike part (f s) (g s')) :
    Alike part (Act.state >>= f) (Act.state >>= g) := by
  intro s s' hpart
  rw [go_bind, go_bind]
  exact h s s' hpart s s' hpart

theorem outcome {x y : Act σ α} (hx : Alike part x y) : Alike part x.outcome y.outcome := by
  intro s s' hpart
  obtain ⟨hresult, hend⟩ := hx s s' hpart
  exact ⟨congrArg Except.ok hresult, hend⟩

theorem on {get : σ → τ} {set : σ → τ → σ} {x y : Act τ α} {inner : τ → δ}
    (hx : Alike inner x y)
    (hget : ∀ s s', part s = part s' → inner (get s) = inner (get s'))
    (hset : ∀ s s' t t', part s = part s' → inner t = inner t' → part (set s t) = part (set s' t')) :
    Alike part (Act.on get set x) (Act.on get set y) := by
  intro s s' hpart
  obtain ⟨hresult, hend⟩ := hx _ _ (hget s s' hpart)
  exact ⟨hresult, hset s s' _ _ hpart hend⟩

/-- What comes last is alike as well when it is alike where two computations with the same result have
ended. -/
theorem andFinally {x y : Act σ α} {last last' : Act σ Unit} {s s' s₁ s₁' : σ} {r : Except Failure α}
    (hx : x.go s = (r, s₁)) (hy : y.go s' = (r, s₁')) (hlast : (last.go s₁).1 = (last'.go s₁').1 ∧
      part (last.go s₁).2 = part (last'.go s₁').2) :
    ((x.andFinally last).go s).1 = ((y.andFinally last').go s').1 ∧
      part ((x.andFinally last).go s).2 = part ((y.andFinally last').go s').2 := by
  unfold Act.andFinally
  rw [go_of, go_of, hx, hy]
  dsimp only
  generalize last.go s₁ = ended at hlast
  generalize last'.go s₁' = ended' at hlast
  obtain ⟨q, s₂⟩ := ended
  obtain ⟨q', s₂'⟩ := ended'
  obtain ⟨rfl, hend⟩ : q = q' ∧ part s₂ = part s₂' := hlast
  cases q with
  | ok _ => exact ⟨rfl, hend⟩
  | error e => exact ⟨rfl, hend⟩

end Act.Alike

def Act.Yields {σ α : Type} (x : Act σ α) (P : α → Prop) : Prop :=
  ∀ s a, (x.go s).1 = .ok a → P a

namespace Act.Yields

variable {σ α β : Type} {P : α → Prop} {Q : β → Prop}

theorem pure {a : α} (h : P a) : Yields (Pure.pure a : Act σ α) P := by
  intro s b hb
  obtain rfl := Except.ok.inj hb
  exact h

theorem throw (e : Failure) : Yields (MonadExcept.throw e : Act σ α) P := by
  intro s a ha
  cases ha

theorem lift {r : Except Failure α} (h : ∀ a, r = .ok a → P a) : Yields (Act.lift r : Act σ α) P :=
  fun _ a ha => h a ha

theorem bind {x : Act σ α} {f : α → Act σ β} (hx : Yields x P) (hf : ∀ a, P a → Yields (f a) Q) :
    Yields (x >>= f) Q := by
  intro s b hb
  have ha := hx s
  rw [Act.go_bind] at hb
  generalize x.go s = result at ha hb
  obtain ⟨r, s'⟩ := result
  cases r with
  | ok a => exact hf a (ha a rfl) s' b hb
  | error e => cases hb

theorem outcome {x : Act σ α} (hx : Yields x P) :
    Yields x.outcome fun r => ∀ a, r = .ok a → P a := by
  intro s r hr
  obtain rfl := Except.ok.inj hr
  exact hx s

/-- After a computation of which nothing is known. -/
theorem after {x : Act σ α} {f : α → Act σ β} (hf : ∀ a, Yields (f a) Q) : Yields (x >>= f) Q :=
  @bind σ α β (fun _ => True) Q x f (fun _ _ _ => trivial) fun a _ => hf a

end Act.Yields

end ProxyCensus
