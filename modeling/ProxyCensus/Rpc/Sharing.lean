import ProxyCensus.Rpc.Client

/-!
# Errands that share a client

Several errands use one client at the same time. They take turns in the order in which they came. A
request gives its turn away whenever it awaits a reply, and comes back behind all that were waiting
then; while it is under way no other request starts. Requests that have to wait start in the order in
which they came.
-/

namespace ProxyCensus

inductive Errand (α : Type) where
  | ask (request : Request)
  | close
  /-- Lets the clock go on. -/
  | advance (seconds : α)
  /-- Starts errands that take their turns behind all others. -/
  | all (errands : List (Errand α))
  /-- Does nothing. -/
  | idle
  deriving Inhabited

namespace Errand

variable {α : Type}

mutual

/-- How many turns an errand may take. -/
def turns : Errand α → Nat
  | .all errands => turnsOf errands + 1
  | _ => 1

def turnsOf : List (Errand α) → Nat
  | [] => 0
  | t :: rest => turns t + turnsOf rest

end

end Errand

/-- Where an errand stands among the others: its number, after those of the errand that started
it. -/
abbrev Place := List Nat

abbrev Turns (α : Type) := List (Place × Errand α)

namespace Turns

variable {α : Type}

def startedBy (place : Place) (errands : List (Errand α)) : Turns α :=
  errands.zipIdx.map fun (t, i) => (place ++ [i], t)

def started (turns : Turns α) : Turns α :=
  turns.flatMap fun (place, t) =>
    match t with
    | .all errands => startedBy place errands
    | _ => []

def requests (turns : Turns α) : List (Place × Request) :=
  turns.filterMap fun (place, t) =>
    match t with
    | .ask request => some (place, request)
    | _ => none

def waitingAfter : Nat → Turns α → Turns α
  | 0, turns => turns
  | n + 1, turns => waitingAfter n turns.started

def requestsWithin : Nat → Turns α → List (Place × Request)
  | 0, _ => []
  | n + 1, turns => turns.requests ++ requestsWithin n turns.started

end Turns

namespace Line

variable {α : Type} [Seconds α]

/-- Does what an errand does when no request can start. -/
def perform : Errand α → Act (Line α) Unit
  | .close => close
  | .advance seconds => writing (Act.change fun j => { j with clock := j.clock + seconds })
  | _ => pure ()

/-- Lets everyone who is waiting take one turn. -/
def performAll (turns : Turns α) : Act (Line α) Unit :=
  turns.forM fun t => perform t.2

/-- Asks a question while others take their turns. The result tells how often a reply was awaited. -/
def askAmong (out : Outside α) (request : Request) (turns : Turns α) :
    Act (Line α) (Except Failure Json × Nat) := do
  let before := (← Act.state).journal.posts.length
  let amid := do
    let n := (← Act.state).journal.posts.length - before - 1
    performAll (turns.waitingAfter n)
  let r ← (askAmid out amid request).outcome
  return (r, (← Act.state).journal.posts.length - before)

/-- What came of the requests, each with its place. -/
abbrev Outcomes := List (Place × Except Failure Json)

/-- Serves the errands in turn, given the requests that have waited and could now start. The first of
them starts behind all that are waiting for a turn. -/
def serve (out : Outside α) : Nat → List (Place × Request) → Turns α → Act (Line α) Outcomes
  | 0, _, _ => pure []
  | fuel + 1, (place, request) :: waiting, turns => do
    performAll turns
    let turns' := turns.started
    let (r, n) ← askAmong out request turns'
    let waiting := waiting ++ turns.requests ++ turns'.requestsWithin n
    return (place, r) :: (← serve out fuel waiting (turns'.waitingAfter n))
  | _ + 1, [], [] => pure []
  | fuel + 1, [], (place, t) :: turns =>
    match t with
    | .ask request => do
      let (r, n) ← askAmong out request turns
      let waiting := Turns.requestsWithin n turns
      return (place, r) :: (← serve out fuel waiting (Turns.waitingAfter n turns))
    | .all errands => serve out fuel [] (turns ++ Turns.startedBy place errands)
    | t => do
      perform t
      serve out fuel [] turns

/-- Does all errands at the same time. Every turn that is served ends an errand or starts those that
wait inside it, so as many turns as the errands may take are enough. -/
def together (out : Outside α) (errands : List (Errand α)) : Act (Line α) Outcomes :=
  serve out (Errand.turnsOf errands + 1) [] (Turns.startedBy [] errands)

end Line

end ProxyCensus
