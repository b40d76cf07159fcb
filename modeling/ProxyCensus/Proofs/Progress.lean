import ProxyCensus.Progress
import ProxyCensus.Proofs.Act
import ProxyCensus.Proofs.Decimal.Finite

/-!
# Progress that never fails

When counting contracts cannot fail. Main statements: counting only writes messages when the number
of contracts is not known and the number of contracts between two messages is a whole number other
than zero, and also when the number of contracts is known and is not exceeded; and a count that
started ends as long as it is not beyond the doubles.
-/

namespace ProxyCensus

/-- A progress whose messages come every so many contracts, when the number of contracts is not
known. -/
structure Progress.Endless (p : Progress) : Prop where
  total : p.total = none
  step : ∃ n : Int, p.itemStep = .whole n ∧ n ≠ 0

theorem Progress.itemSteps_ok {p : Progress} (h : p.Endless) (n : Int) :
    ∃ steps, p.itemSteps n = .ok steps := by
  obtain ⟨step, hstep, hne⟩ := h.step
  exact ⟨.whole (n.fdiv step), by simp [itemSteps, hstep, hne]⟩

theorem Progress.message?_ok {p : Progress} (h : p.Endless) (before : Int) :
    ∃ message, p.message? before = .ok message := by
  obtain ⟨a, ha⟩ := itemSteps_ok h before
  obtain ⟨b, hb⟩ := itemSteps_ok h p.processed
  unfold message?
  rw [h.total]
  dsimp only
  rw [ha, hb]
  exact ⟨_, rfl⟩

theorem Progress.Endless.add {p : Progress} (h : p.Endless) (count : Int) (skipped : Bool) :
    (p.add count skipped).Endless :=
  ⟨h.total, h.step⟩

/-- A progress whose messages come every ten percent of a known number of contracts. -/
structure Progress.Bounded (p : Progress) (known : Nat) : Prop where
  total : p.total = some (known : Int)
  step : p.percentStep = .whole 10
  nonneg : 0 ≤ p.processed
  within : p.processed ≤ known

theorem Progress.percentage_ok {n total : Int} (hn : 0 ≤ n) (htotal : 0 < total) (h : n ≤ total) :
    ∃ x, percentage n total = .ok x ∧ x.isFinite = true := by
  have hsmall : (n * 100).natAbs < total.natAbs * 2 ^ 255 := by omega
  obtain ⟨x, hx⟩ := Decimal.quotient?_isSome (Int.ne_of_gt htotal) hsmall
  refine ⟨x, ?_, Decimal.isFinite_of_nearest? hx⟩
  rw [percentage, hx]
  rfl

theorem wholePart_ok {x : Float} (h : x.isFinite = true) : ∃ n, wholePart x = .ok n := by
  obtain ⟨negative, mantissa, exponent, hx⟩ := Decimal.ofFloat_of_isFinite h
  unfold wholePart
  rw [hx]
  exact ⟨_, rfl⟩

theorem Progress.percentSteps_ok {p : Progress} (h : p.percentStep = .whole 10) {x : Float}
    (hx : x.isFinite = true) : ∃ n, p.percentSteps x = .ok n := by
  obtain ⟨n, hn⟩ := wholePart_ok (Decimal.isFinite_div_ten hx)
  have hten : Failure.orElse .largeInteger p.percentStep.toFloat? =
      .ok (Float.ofBits 0x4024000000000000) := by
    rw [h]
    rfl
  have hne : (Float.ofBits 0x4024000000000000 == 0) = false := by decide
  refine ⟨n, ?_⟩
  unfold percentSteps
  rw [hten]
  have hsteps : (do
      let step ← (.ok (Float.ofBits 0x4024000000000000) : Except Failure Float)
      if step == 0 then .error .divisionByZero else wholePart (x / step)) =
      if (Float.ofBits 0x4024000000000000 == 0) = true then (.error .divisionByZero : Except Failure Int)
      else wholePart (x / Float.ofBits 0x4024000000000000) := rfl
  rw [hsteps, hne]
  exact hn

theorem Progress.Bounded.message?_ok {p : Progress} {total : Nat} (h : p.Bounded total)
    {before : Int} (hbefore : 0 ≤ before) (hle : before ≤ total) :
    ∃ message, p.message? before = .ok message := by
  unfold message?
  rw [h.total]
  dsimp only
  split
  · exact ⟨_, rfl⟩
  · obtain ⟨x, hx, hfinite⟩ := percentage_ok h.nonneg (Int.lt_of_not_ge ‹_›) h.within
    obtain ⟨y, hy, hfinite'⟩ := percentage_ok hbefore (Int.lt_of_not_ge ‹_›) hle
    obtain ⟨n, hn⟩ := percentSteps_ok h.step hfinite
    obtain ⟨k, hk⟩ := percentSteps_ok h.step hfinite'
    obtain ⟨whole, hwhole⟩ := wholePart_ok hfinite
    rw [hx, hy]
    change ∃ message, (do
      if (← p.percentSteps y) != (← p.percentSteps x) then
        return some s!"{p.counted} Progress is {← wholePart x}%."
      else return none : Except Failure (Option String)) = .ok message
    rw [hn, hk, hwhole]
    change ∃ message, (if (k != n) = true then _ else _) = Except.ok message
    split <;> exact ⟨_, rfl⟩

theorem Progress.Bounded.add {p : Progress} {total : Nat} (h : p.Bounded total) {count : Nat}
    (hroom : p.processed + count ≤ total) (skipped : Bool) : (p.add count skipped).Bounded total :=
  ⟨h.total, h.step, Int.add_nonneg h.nonneg (Int.natCast_nonneg count), hroom⟩

theorem Progress.Bounded.small {p : Progress} {total : Nat} (h : p.Bounded total)
    (htotal : total < 2 ^ 255) : p.processed.natAbs < 2 ^ 255 := by
  have hnonneg := h.nonneg
  have hwithin := h.within
  omega

namespace Tracked

variable {α : Type}

/-- Counting changes the counters, and at most writes a message. -/
theorem go_track_of_ok {t : Tracked α} {count : Int} {skipped : Bool} {message : Option String}
    (hmessage : (t.progress.add count skipped).message? t.progress.processed = .ok message) :
    ∃ logs, (track count skipped).go t =
      (.ok (), ⟨t.progress.add count skipped, { t.journal with logs := logs }⟩) := by
  unfold track
  rw [Act.go_bind, Act.go_state]
  dsimp only
  rw [Act.go_bind, Act.go_change]
  dsimp only
  rw [Act.go_bind, Act.go_state]
  dsimp only
  rw [Act.go_bind, Act.go_lift, hmessage]
  cases message with
  | none => exact ⟨t.journal.logs, rfl⟩
  | some message => exact ⟨_, rfl⟩

theorem go_track {t : Tracked α} (h : t.progress.Endless) (count : Int) (skipped : Bool) :
    ∃ logs, (track count skipped).go t =
      (.ok (), ⟨t.progress.add count skipped, { t.journal with logs := logs }⟩) := by
  obtain ⟨message, hmessage⟩ := Progress.message?_ok (h.add count skipped) t.progress.processed
  exact go_track_of_ok hmessage

/-- Counting that fails to make its message has changed the counters all the same. -/
theorem go_track_of_error {t : Tracked α} {count : Int} {skipped : Bool} {f : Failure}
    (hmessage : (t.progress.add count skipped).message? t.progress.processed = .error f) :
    (track count skipped).go t = (.error f, ⟨t.progress.add count skipped, t.journal⟩) := by
  unfold track
  rw [Act.go_bind, Act.go_state]
  dsimp only
  rw [Act.go_bind, Act.go_change]
  dsimp only
  rw [Act.go_bind, Act.go_state]
  dsimp only
  rw [Act.go_bind, Act.go_lift, hmessage]

/-- Whatever becomes of the message, counting changes the counters and the messages alone. -/
theorem go_track_cases (t : Tracked α) (count : Int) (skipped : Bool) :
    ∃ r logs, (track count skipped).go t =
      (r, ⟨t.progress.add count skipped, { t.journal with logs := logs }⟩) := by
  cases hmessage : (t.progress.add count skipped).message? t.progress.processed with
  | error f => exact ⟨_, t.journal.logs, go_track_of_error hmessage⟩
  | ok message =>
    obtain ⟨logs, hlogs⟩ := go_track_of_ok hmessage
    exact ⟨_, logs, hlogs⟩

theorem go_track_of_zero {t : Tracked α} (htotal : t.progress.total = none)
    (hstep : t.progress.itemStep = .whole 0) (count : Int) (skipped : Bool) :
    (track count skipped).go t =
      (.error .divisionByZero, ⟨t.progress.add count skipped, t.journal⟩) := by
  have hmessage : (t.progress.add count skipped).message? t.progress.processed =
      .error .divisionByZero := by
    unfold Progress.message? Progress.itemSteps Progress.add
    rw [htotal, hstep]
    rfl
  exact go_track_of_error hmessage

theorem go_track_bounded {t : Tracked α} {total : Nat} (h : t.progress.Bounded total) {count : Nat}
    (hroom : t.progress.processed + count ≤ total) (skipped : Bool) :
    ∃ logs, (track count skipped).go t =
      (.ok (), ⟨t.progress.add count skipped, { t.journal with logs := logs }⟩) := by
  obtain ⟨message, hmessage⟩ := (h.add hroom skipped).message?_ok h.nonneg h.within
  exact go_track_of_ok hmessage

/-- A count within the doubles ends; at most the date is read and a message is written. -/
theorem go_finish (out : Outside α) {t : Tracked α}
    (h : t.progress.processed.natAbs < 2 ^ 255) :
    ∃ dates logs, (finish out).go t = (.ok (), ⟨{ t.progress with started := none },
      { t.journal with dates := dates, logs := logs }⟩) := by
  unfold finish
  rw [Act.go_bind, Act.go_state]
  dsimp only
  cases hs : t.progress.started with
  | none =>
    refine ⟨t.journal.dates, t.journal.logs, ?_⟩
    rw [Act.go_pure, ← hs]
  | some started =>
    have hrate : ∀ span, ∃ rate, Progress.rate t.progress.processed span = .ok rate := by
      intro span
      obtain ⟨x, hx⟩ := Decimal.ofInt?_isSome h
      unfold Progress.rate
      rw [hx]
      dsimp only
      split <;> exact ⟨_, rfl⟩
    obtain ⟨rate, hrate⟩ := hrate (out.date t.journal.dates - started)
    refine ⟨t.journal.dates + 1, ?_⟩
    change ∃ logs, Act.go (Act.lift (Progress.rate t.progress.processed
      (out.date t.journal.dates - started)) >>= _) _ = _
    rw [hrate]
    exact ⟨_, rfl⟩

/-- The end of a count reads the date once if the count has started. -/
theorem dates_finish (out : Outside α) (t : Tracked α) :
    ((finish out).go t).2.journal.dates = t.journal.dates + t.progress.started.toList.length := by
  unfold finish
  rw [Act.go_bind, Act.go_state]
  dsimp only
  cases t.progress.started with
  | none => rfl
  | some started =>
    rw [Act.go_bind]
    change (Act.go (Act.lift (Progress.rate t.progress.processed
      (out.date t.journal.dates - started)) >>= _) (Tracked.mk _ _)).2.journal.dates = _
    rw [Act.go_bind, Act.go_lift]
    cases Progress.rate t.progress.processed (out.date t.journal.dates - started) <;> rfl

theorem progress_track (t : Tracked α) (count : Int) (skipped : Bool) :
    ((track count skipped).go t).2.progress = t.progress.add count skipped := by
  obtain ⟨r, logs, h⟩ := go_track_cases t count skipped
  rw [h]

def counters (t : Tracked α) : Int × Int :=
  (t.progress.processed, t.progress.skipped)

theorem counters_writing {β : Type} (x : Act (Journal α) β) : Act.Keeps counters (writing x) :=
  fun _ => rfl

theorem counters_info (message : String) : Act.Keeps counters (info message : Act (Tracked α) Unit) :=
  .bind .state fun _ => counters_writing _

theorem start_keeps (out : Outside α) (total : Option Int) : Act.Keeps counters (start out total) := by
  refine .bind (counters_writing _) fun now => .bind (fun _ => rfl) fun _ => .bind .state fun t => ?_
  cases total with
  | none => exact counters_info _
  | some n => exact counters_info _

theorem finish_keeps (out : Outside α) : Act.Keeps counters (finish out) := by
  refine .bind .state fun t => ?_
  dsimp only
  split
  · exact .pure _
  · exact .bind (counters_writing _) fun _ => .bind (.lift _) fun _ =>
      .bind (counters_info _) fun _ => fun _ => rfl

end Tracked

end ProxyCensus
