import ProxyCensus.Proofs.Json.ReadBack
import ProxyCensus.Rpc.Verdict

/-!
# Texts that nest too deep

A reader with room for so many levels goes into as many opening brackets and fails at the next one,
whatever comes after it. Main statement: of the bodies that are nothing but opening brackets exactly those
nest too deep that have more of them than there is room for.
-/

namespace ProxyCensus

namespace Json

variable {room : Nat}

theorem reads_bracket {stack : List Frame} (mayClose : Bool) (h : stack.length < room)
    (left : List Char) : Reads (.lenient room) ⟨stack, .value mayClose⟩ ('[' :: left)
      ⟨.array [] :: stack, .value true⟩ left := by
  have hopen : Reader.mayOpen (.lenient room) ⟨stack, .value mayClose⟩ = true := by
    simpa [Reader.mayOpen, Dialect.lenient] using h
  refine @Reads.mark (.lenient room) _ _ [] (fun c hc => by cases hc) '[' (by decide) left _ rfl
    fun place => ?_
  simp [Reader.step, Reader.stepValue, hopen]

/-- Opening brackets lead as many levels deeper. -/
theorem reads_brackets (n : Nat) (left : List Char) :
    ∀ {stack : List Frame} (mayClose : Bool), stack.length + n ≤ room → ∃ stack' mayClose',
      stack'.length = stack.length + n ∧ Reads (.lenient room) ⟨stack, .value mayClose⟩
        (List.replicate n '[' ++ left) ⟨stack', .value mayClose'⟩ left := by
  induction n with
  | zero => exact fun {stack} mayClose _ => ⟨stack, mayClose, rfl, fun fuel h => ⟨fuel, h, rfl⟩⟩
  | succ n ih =>
    intro stack mayClose h
    obtain ⟨stack', mayClose', hlength, hreads⟩ := @ih (.array [] :: stack) true (by
      rw [List.length_cons]
      omega)
    refine ⟨stack', mayClose', by rw [hlength, List.length_cons]; omega, ?_⟩
    exact (reads_bracket mayClose (by omega) _).trans hreads

/-- A text that begins with more opening brackets than there is room for nests too deep. -/
theorem read_of_brackets {n : Nat} (h : room < n) (rest : List Char) :
    ∃ left, read (.lenient room) (List.replicate n '[' ++ rest) = .error ⟨.deepArray, left⟩ := by
  obtain ⟨more, rfl⟩ := Nat.exists_eq_add_of_lt h
  have hsplit : List.replicate (room + more + 1) '[' ++ rest =
      List.replicate room '[' ++ '[' :: (List.replicate more '[' ++ rest) := by
    rw [Nat.add_assoc, ← List.replicate_append_replicate, List.replicate_succ, List.append_assoc]
    rfl
  obtain ⟨stack, mayClose, hlength, hreads⟩ := @reads_brackets room room
    ('[' :: (List.replicate more '[' ++ rest)) [] false (by simp)
  obtain ⟨fuel, hfuel, hgo⟩ := hreads _ (Nat.le_refl _)
  obtain ⟨fuel, rfl⟩ : ∃ k, fuel = k + 1 := ⟨fuel - 1, by rw [List.length_cons] at hfuel; omega⟩
  have hfull : Reader.mayOpen (.lenient room) ⟨stack, .value mayClose⟩ = false := by
    simp [Reader.mayOpen, Dialect.lenient, hlength]
  have hstep : ∀ place, Reader.step (.lenient room) ⟨stack, .value mayClose⟩ (.openArray, place) =
      .error ⟨.deepArray, place.length⟩ := by
    intro place
    simp [Reader.step, Reader.stepValue, hfull]
  have hlexemes : lexemesFrom (.lenient room) (fuel + 1) ('[' :: (List.replicate more '[' ++ rest)) =
      (.openArray, '[' :: (List.replicate more '[' ++ rest)) ::
        lexemesFrom (.lenient room) fuel (List.replicate more '[' ++ rest) := rfl
  rw [hlexemes, List.foldlM_cons, hstep] at hgo
  rw [hsplit, read_of_unmarked, lexemes, hgo]
  · exact ⟨_, rfl⟩
  · intro rest' heq
    have hhead := congrArg List.head? heq
    cases room <;> simp [List.replicate_succ] at hhead

/-- A text of opening brackets alone, as many as there is room for, ends where a value is expected. -/
theorem read_of_few_brackets {n : Nat} (h : n ≤ room) :
    read (.lenient room) (List.replicate n '[') = .error ⟨.noValue, 0⟩ := by
  obtain ⟨stack, mayClose, -, hreads⟩ := @reads_brackets room n [] [] false (by simpa using h)
  rw [List.append_nil] at hreads
  obtain ⟨fuel, -, hgo⟩ := hreads _ (Nat.le_refl _)
  have hempty : lexemesFrom (.lenient room) fuel [] = [] := by
    cases fuel <;> rfl
  rw [hempty] at hgo
  rw [read_of_unmarked, lexemes, hgo]
  · rfl
  · intro rest heq
    have hhead := congrArg List.head? heq
    cases n <;> simp [List.replicate_succ] at hhead

end Json

/-- A body of opening brackets nests too deep when there are more of them than there is room for. -/
theorem Body.ofTextWithin_brackets_iff (room n : Nat) :
    (∃ reason, ofTextWithin room (String.ofList (List.replicate n '[')) = .tooDeep reason) ↔
      room < n := by
  have htrim : Text.trimBy Text.isPlainSpace (List.replicate n '[') = List.replicate n '[' :=
    Text.trimBy_eq_self
      (fun c hc => by rw [List.eq_of_mem_replicate (List.mem_of_head? hc)]; decide)
      (fun c hc => by rw [List.eq_of_mem_replicate (List.mem_of_getLast? hc)]; decide)
  unfold ofTextWithin
  rw [String.toList_ofList, htrim]
  dsimp only
  constructor
  · rintro ⟨reason, hreason⟩
    by_contra hroom
    split at hreason
    · cases hreason
    · rw [Json.ofTextWithin, String.toList_ofList,
        Json.read_of_few_brackets (Nat.not_lt.1 hroom)] at hreason
      cases hreason
  · intro hroom
    obtain ⟨left, hread⟩ := Json.read_of_brackets hroom []
    rw [List.append_nil] at hread
    obtain ⟨more, rfl⟩ := Nat.exists_eq_add_of_lt hroom
    rw [if_neg (by simp [String.isEmpty_iff]), Json.ofTextWithin, String.toList_ofList, hread]
    exact ⟨_, rfl⟩

end ProxyCensus
