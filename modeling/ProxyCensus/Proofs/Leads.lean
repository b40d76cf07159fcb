import Mathlib.Order.Defs.Unbundled
import ProxyCensus.Proofs.Act

/-!
# Where computations lead

A relation between the state in which a computation begins and the one in which it ends, also when it
fails. Main statement: what every step of a computation leads to, the whole computation leads to, if the
relation holds from a state to itself and comes together. That a computation keeps a part of the state is
the case of the states that agree in the part.
-/

namespace ProxyCensus

theorem Act.state_andFinally {σ α : Type} (x : Act σ α) (last : Act σ Unit) (s : σ) :
    ((x.andFinally last).go s).2 = (last.go (x.go s).2).2 := by
  unfold andFinally
  rw [go_of]
  dsimp only
  rcases last.go (x.go s).2 with ⟨_ | _, s'⟩ <;> rfl

/-- A computation that leads from every state to one that a relation allows, also when it fails. -/
def Act.Leads {σ α : Type} (R : σ → σ → Prop) (x : Act σ α) : Prop :=
  ∀ s, R s (x.go s).2

namespace Act.Leads

variable {σ α β : Type} {R : σ → σ → Prop}

theorem outcome {x : Act σ α} (hx : Leads R x) : Leads R x.outcome :=
  hx

/-- Two steps lead where either of them leads and where both lead together. -/
theorem bind_to {x : Act σ α} {f : α → Act σ β} {S T : σ → σ → Prop} (hx : Leads R x)
    (hf : ∀ a, Leads S (f a)) (hend : ∀ {s s'}, R s s' → T s s')
    (htrans : ∀ {s s' s''}, R s s' → S s' s'' → T s s'') : Leads T (x >>= f) := by
  intro s
  have hs := hx s
  rw [Act.go_bind]
  generalize x.go s = result at hs
  obtain ⟨r, s'⟩ := result
  cases r with
  | ok a => exact htrans hs (hf a s')
  | error e => exact hend hs

section

variable [Std.Refl R]

theorem pure (a : α) : Leads R (Pure.pure a : Act σ α) := fun s => Std.Refl.refl s

theorem throw (e : Failure) : Leads R (MonadExcept.throw e : Act σ α) := fun s => Std.Refl.refl s

theorem lift (r : Except Failure α) : Leads R (Act.lift r : Act σ α) := fun s => Std.Refl.refl s

theorem state : Leads R (Act.state : Act σ σ) := fun s => Std.Refl.refl s

end

variable [IsTrans σ R]

theorem bind {x : Act σ α} {f : α → Act σ β} (hx : Leads R x) (hf : ∀ a, Leads R (f a)) :
    Leads R (x >>= f) :=
  hx.bind_to hf id fun h h' => IsTrans.trans _ _ _ h h'

end Act.Leads

namespace Act

variable {σ α γ : Type} {part : σ → γ}

/-- Two states agree in a part. -/
def Agree (part : σ → γ) (s s' : σ) : Prop :=
  part s' = part s

instance : Std.Refl (Agree part) where
  refl _ := rfl

instance : IsTrans σ (Agree part) where
  trans _ _ _ h h' := Eq.trans h' h

/-- A computation keeps a part of the state when it leads to states that agree in it. -/
theorem Leads.keeps {x : Act σ α} (h : Leads (Agree part) x) : Keeps part x :=
  h

theorem Keeps.leads {x : Act σ α} (h : Keeps part x) : Leads (Agree part) x :=
  h

end Act

end ProxyCensus
