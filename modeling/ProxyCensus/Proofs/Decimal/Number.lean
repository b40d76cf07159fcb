import ProxyCensus.Decimal.Sorting
import ProxyCensus.Proofs.Decimal.Nearest

/-!
# Sums and quotients of doubles

Computations that start from doubles, or from zero, always have a result. Main statements: so do the
sum, the mean and the middle of a list of doubles.
-/

namespace ProxyCensus.Decimal.Number

/-- A double, or the integer zero with which a sum starts. -/
inductive Tame : Number → Prop
  | zero : Tame (.whole 0)
  | real (x : Float) : Tame (.real x)

theorem toFloat?_tame {a : Number} (h : Tame a) : ∃ x, a.toFloat? = some x := by
  cases h with
  | zero => exact ofInt?_isSome (by decide)
  | real x => exact ⟨x, rfl⟩

theorem add?_tame {a b : Number} (ha : Tame a) (hb : Tame b) : ∃ c, a.add? b = some c ∧ Tame c := by
  obtain ⟨z, hz⟩ := toFloat?_tame .zero
  cases ha with
  | zero =>
    cases hb with
    | zero => exact ⟨_, rfl, .zero⟩
    | real y => exact ⟨.real (z + y), by simp only [add?, combine?, hz]; rfl, .real _⟩
  | real x =>
    cases hb with
    | zero => exact ⟨.real (x + z), by simp only [add?, combine?, hz]; rfl, .real _⟩
    | real y => exact ⟨.real (x + y), rfl, .real _⟩

theorem sum?_tame {numbers : List Number} (h : ∀ a ∈ numbers, Tame a) :
    ∃ c, sum? numbers = some c ∧ Tame c := by
  have hfold : ∀ start, Tame start → ∃ c, numbers.foldlM add? start = some c ∧ Tame c := by
    induction numbers with
    | nil => exact fun start hs => ⟨start, rfl, hs⟩
    | cons a rest ih =>
      intro start hs
      obtain ⟨b, hb, htame⟩ := add?_tame hs (h a List.mem_cons_self)
      obtain ⟨c, hc⟩ := ih (fun a ha => h a (List.mem_cons_of_mem _ ha)) b htame
      exact ⟨c, by rw [List.foldlM_cons, hb]; exact hc⟩
  exact hfold _ .zero

theorem dividedBy?_tame {a : Number} (h : Tame a) {n : Nat} (hn : n ≠ 0) :
    ∃ x, a.dividedBy? n = some x := by
  cases h with
  | zero =>
    refine quotient?_isSome (by omega) ?_
    have : 0 < n * 2 ^ 255 := Nat.mul_pos (by omega) (Nat.pow_pos (by decide))
    simpa using this
  | real x => exact ⟨_, rfl⟩

theorem sort_tame {numbers : List Number} (h : ∀ a ∈ numbers, Tame a) :
    ∀ a ∈ sort numbers, Tame a :=
  fun a ha => h a ((perm_sort numbers).mem_iff.1 ha)

theorem getD_tame {numbers : List Number} (h : ∀ a ∈ numbers, Tame a) (i : Nat) :
    Tame (numbers.getD i (.whole 0)) := by
  rw [List.getD_eq_getElem?_getD]
  cases hi : numbers[i]? with
  | none => exact .zero
  | some a => exact h a (List.mem_of_getElem? hi)

end ProxyCensus.Decimal.Number
