import ProxyCensus.Journal

/-!
# The client of a node

Asks questions of one chain at one or several addresses. Requests keep a distance from each other,
which grows when a node asks to slow down. A request goes to the addresses in their order, round
after round, until a reply decides it or the rounds are used up.
-/

namespace ProxyCensus

inductive Session where
  | none
  | open
  | closed
  deriving DecidableEq, Repr

/-- Where requests go. -/
inductive Endpoints where
  | list (urls : List Json)
  /-- A value that cannot be gone through. -/
  | scalar

structure Client (α : Type) where
  endpoints : Endpoints
  /-- How many rounds a request may take. -/
  rounds : Int
  timeout : Float
  /-- How far apart requests are. -/
  interval : α
  lastId : Nat := 0
  /-- When the last request was sent. -/
  lastSent : α
  session : Session := .none

namespace Client

variable {α : Type}

/-- Where requests go when the value configures the address: a text is one address, a list has
several, and an object lists them as its keys. -/
def endpoints? : Json → Option Endpoints
  | .str s => some (.list [.str s])
  | .arr urls => if urls.isEmpty then none else some (.list urls)
  | .obj fields => if fields.isEmpty then none else some (.list (fields.map fun f => .str f.1))
  | v => if v.isSet then some .scalar else none

def ofUrl? [Seconds α] (url : Json) (rounds : Int) (timeout : Float) (interval : α) :
    Except Failure (Client α) :=
  match endpoints? url with
  | some endpoints =>
    .ok { endpoints, rounds, timeout, interval, lastSent := Seconds.hundredths 0 }
  | none => .error (.badValue "At least one RPC URL must be provided.")

end Client

/-- A client and the journal it writes to. -/
structure Line (α : Type) where
  client : Client α
  journal : Journal α

namespace Line

variable {α : Type}

def writing {β : Type} (x : Act (Journal α) β) : Act (Line α) β :=
  Act.on Line.journal (fun l j => { l with journal := j }) x

def adjust (f : Client α → Client α) : Act (Line α) Unit :=
  Act.change fun l => { l with client := f l.client }

def log (level : Level) (message : String) : Act (Line α) Unit :=
  writing (Journal.log level "Rpc Client" message)

def connect : Act (Line α) Unit := do
  let client := (← Act.state).client
  if client.session != .open then
    writing (Journal.note (.open client.timeout))
    adjust ({ · with session := .open })

def close : Act (Line α) Unit := do
  if (← Act.state).client.session == .open then
    writing (Journal.note .close)
    adjust ({ · with session := .closed })

variable [Seconds α]

def keepDistance : Act (Line α) Unit := do
  let l ← Act.state
  match Pacing.wait? l.client.interval (l.journal.clock - l.client.lastSent) with
  | some seconds => writing (Journal.sleep seconds)
  | none => pure ()
  let now := (← Act.state).journal.clock
  adjust ({ · with lastSent := now })

def drawPause (out : Outside α) (attempt : Nat) : Act (Line α) α := do
  let jitter ← writing (Journal.draw out)
  Act.lift (Failure.orElse .largeInteger (Pacing.pause? attempt jitter))

def backOff (out : Outside α) (url : String) (attempt : Nat) (method : String) :
    Act (Line α) Unit := do
  let before := (← Act.state).client.interval
  let after := Pacing.slowed before
  adjust ({ · with interval := after })
  if Seconds.less before after then
    let before := Seconds.text before
    let after := Seconds.text after
    log .warning (s!"RPC 429 Rate Limit at {url}. Increasing per-request delay from " ++
      s!"{before}s to {after}s")
  let pause ← drawPause out attempt
  let text := Seconds.text pause
  log .warning s!"RPC 429 at {url} for {method}. Backing off for {text}s..."
  writing (Journal.sleep pause)

/-- Acts on a verdict: an answer ends the request, a refusal fails it, and for anything else the
reason to go on is kept. -/
def settle (out : Outside α) (url method : String) (attempt : Nat) :
    Rpc.Verdict → Act (Line α) (Json ⊕ Failure)
  | .answer v => pure (.inl v)
  | .refuse f => throw f
  | .busy => do
    backOff out url attempt method
    return .inr (.request s!"HTTP 429 from {url}")
  | .status code => do
    log .warning s!"RPC HTTP Error {code} in {method} at {url}."
    return .inr (.request s!"HTTP {code} from {url}")
  | .unready reason => do
    log .debug s!"Retriable RPC error in {method} at {url}: {reason}"
    return .inr (.retriable reason)
  | .broken fault => do
    let cause := (Failure.network fault).describe
    log .warning s!"Network error in {method} at {url}: {cause}"
    return .inr (.network fault)

/-- Sends a request to one address. While the reply is awaited, others may do something with the
client. -/
def tryUrl (out : Outside α) (amid : Act (Line α) Unit) (request : Request) (attempt : Nat)
    (url : Json) : Act (Line α) (Json ⊕ Failure) := do
  let id := (← Act.state).client.lastId + 1
  adjust ({ · with lastId := id })
  keepDistance
  let delivery ← writing (Journal.send out ⟨url, request, id⟩)
  amid
  settle out url.display request.method attempt
    (Rpc.judge request.method url.display delivery)

/-- Sends a request to the addresses in their order until a reply decides it. Otherwise the last
reason to go on is kept. -/
def tryUrls (out : Outside α) (amid : Act (Line α) Unit) (request : Request) (attempt : Nat)
    (last : Option Failure) : List Json → Act (Line α) (Json ⊕ Option Failure)
  | [] => pure (.inr last)
  | url :: rest => do
    match ← tryUrl out amid request attempt url with
    | .inl v => pure (.inl v)
    | .inr cause => tryUrls out amid request attempt (some cause) rest

/-- The request has failed in every round. -/
def exhausted (method : String) (rounds : Int) (last : Option Failure) : Failure :=
  let cause := match last with
    | some f => f.describe
    | none => "None"
  .request s!"{method} failed after {rounds} attempts: {cause}"

def tryRounds (out : Outside α) (amid : Act (Line α) Unit) (request : Request) (urls : List Json)
    (attempt : Nat) (last : Option Failure) : Nat → Act (Line α) Json
  | 0 => do
    let rounds := (← Act.state).client.rounds
    throw (exhausted request.method rounds last)
  | left + 1 => do
    match ← tryUrls out amid request attempt last urls with
    | .inl v => pure v
    | .inr last =>
      if left != 0 then writing (Journal.sleep (← drawPause out attempt))
      tryRounds out amid request urls (attempt + 1) last left

/-- Asks a question; others may do something with the client whenever a reply is awaited. -/
def askAmid (out : Outside α) (amid : Act (Line α) Unit) (request : Request) :
    Act (Line α) Json := do
  connect
  let client := (← Act.state).client
  match client.endpoints with
  | .list urls => tryRounds out amid request urls 1 none client.rounds.toNat
  | .scalar =>
    if client.rounds ≤ 0 then throw (exhausted request.method client.rounds none)
    else throw .wrongKind

def ask (out : Outside α) (request : Request) : Act (Line α) Json :=
  askAmid out (pure ()) request

end Line

end ProxyCensus
