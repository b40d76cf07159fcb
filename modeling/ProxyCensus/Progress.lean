import ProxyCensus.Journal
import ProxyCensus.Json.Integer

/-!
# Progress

How far a run has come. Skipped contracts count as processed and are counted apart as well. When the
number of contracts is known there is a message every few percent, otherwise every few contracts.
-/

namespace ProxyCensus

/-- How far a run has come, and when to say so. -/
structure Progress where
  name : String := "work"
  logger : String := "Progress Logger"
  /-- The percent between two messages. -/
  percentStep : Decimal.Number := .whole 10
  /-- The contracts between two messages. -/
  itemStep : Decimal.Number := .whole 5000
  total : Option Int := none
  /-- When the run started, in microseconds. -/
  started : Option Int := none
  processed : Int := 0
  skipped : Int := 0

namespace Progress

def counted (p : Progress) : String :=
  s!"{p.processed} contracts processed ({p.skipped} skipped)."

/-- The percentage that a number of contracts makes up. -/
def percentage (n total : Int) : Except Failure Float :=
  Failure.orElse .largeQuotient (Decimal.quotient? (n * 100) total)

def percentSteps (p : Progress) (percent : Float) : Except Failure Int := do
  let step ← Failure.orElse .largeInteger p.percentStep.toFloat?
  if step == 0 then .error .divisionByZero else wholePart (percent / step)

/-- How many steps a number of contracts makes: exactly when the step is an integer, and otherwise
as far as doubles can tell. -/
def itemSteps (p : Progress) (n : Int) : Except Failure Decimal.Number :=
  match p.itemStep with
  | .whole step => if step == 0 then .error .divisionByZero else .ok (.whole (n.fdiv step))
  | .real step => do
    let x ← Failure.orElse .largeInteger (Decimal.ofInt? n)
    if step == 0 then .error .divisionByZero else .ok (.real (Decimal.wholeSteps x step))

/-- What is to be said now that `before` contracts have become `p.processed`, if anything. -/
def message? (p : Progress) (before : Int) : Except Failure (Option String) :=
  match p.total with
  | none => do
    let stepsBefore ← p.itemSteps before
    let steps ← p.itemSteps p.processed
    return if stepsBefore.equal steps then none else some p.counted
  | some total =>
    if total ≤ 0 then .ok none
    else do
      let percent ← percentage p.processed total
      let percentBefore ← percentage before total
      if (← p.percentSteps percentBefore) != (← p.percentSteps percent) then
        return some s!"{p.counted} Progress is {← wholePart percent}%."
      else return none

def add (p : Progress) (count : Int) (skipped : Bool) : Progress :=
  { p with
    processed := p.processed + count
    skipped := if skipped then p.skipped + count else p.skipped }

/-- A span of time as hours, minutes and seconds, with the days in front unless there are none. -/
def spanText (microseconds : Int) : String :=
  let day : Int := 86400000000
  let days := microseconds.fdiv day
  let rest := (microseconds.fmod day).toNat
  let two := fun n : Nat => String.ofList (Decimal.padLeft 2 '0' (Nat.toDigits 10 n))
  let seconds := rest / 1000000
  let fraction := rest % 1000000
  let clock := s!"{seconds / 3600}:{two (seconds / 60 % 60)}:{two (seconds % 60)}"
  let point := if fraction == 0 then ""
    else String.ofList ('.' :: Decimal.padLeft 6 '0' (Nat.toDigits 10 fraction))
  let front := if days == 0 then ""
    else if days.natAbs == 1 then s!"{days} day, " else s!"{days} days, "
  front ++ clock ++ point

/-- How many contracts a second were processed in a span of time; none when no time has passed. -/
def rate (processed microseconds : Int) : Except Failure Float :=
  let seconds := (Decimal.quotient? microseconds 1000000).getD 0
  if 0 < seconds then
    (Failure.orElse .largeInteger (Decimal.ofInt? processed)).map (· / seconds)
  else .ok 0

end Progress

/-- A progress and the journal it writes to. -/
structure Tracked (α : Type) where
  progress : Progress
  journal : Journal α

namespace Tracked

variable {α : Type}

def writing {β : Type} (x : Act (Journal α) β) : Act (Tracked α) β :=
  Act.on Tracked.journal (fun t j => { t with journal := j }) x

def info (message : String) : Act (Tracked α) Unit := do
  let logger := (← Act.state).progress.logger
  writing (Journal.log .info logger message)

def start (out : Outside α) (total : Option Int) : Act (Tracked α) Unit := do
  let now ← writing (Journal.date out)
  Act.change fun t => { t with progress := { t.progress with total, started := some now } }
  let name := (← Act.state).progress.name
  match total with
  | some n => info s!"Started {name}. Contracts to process: {n}."
  | none => info s!"Started {name}."

/-- Counts contracts and says so when it is time. The counters go on even when that fails. -/
def track (count : Int) (skipped : Bool) : Act (Tracked α) Unit := do
  let before := (← Act.state).progress.processed
  Act.change fun t => { t with progress := t.progress.add count skipped }
  match ← Act.lift ((← Act.state).progress.message? before) with
  | some message => info message
  | none => pure ()

def finish (out : Outside α) : Act (Tracked α) Unit := do
  let p := (← Act.state).progress
  match p.started with
  | none => pure ()
  | some started =>
    let now ← writing (Journal.date out)
    let span := now - started
    let rate := Decimal.fixed 1 (← Act.lift (Progress.rate p.processed span))
    info (s!"Finished {p.name}. Contracts processed: {p.processed}, skipped: {p.skipped}. " ++
      s!"Took {Progress.spanText span} ({rate} contracts/s).")
    Act.change fun t => { t with progress := { t.progress with started := none } }

end Tracked

end ProxyCensus
