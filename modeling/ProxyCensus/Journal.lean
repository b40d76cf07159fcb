import ProxyCensus.Checkpoint.Disk
import ProxyCensus.Decimal.Number
import ProxyCensus.Rpc.Pacing
import ProxyCensus.Rpc.Verdict

/-!
# The journal of a run

What a run has done so far as far as anyone outside can tell: messages, requests, queries, files and
the readings of clocks; and what the outside answers, which may depend on how often, and for
requests on what, it was asked before.
-/

namespace ProxyCensus

/-- How important a message is. -/
inductive Level where
  | debug
  | info
  | warning
  | error
  | critical
  deriving DecidableEq, Repr

def Level.name : Level → String
  | .debug => "DEBUG"
  | .info => "INFO"
  | .warning => "WARNING"
  | .error => "ERROR"
  | .critical => "CRITICAL"

def Level.value : Level → Int
  | .debug => 10
  | .info => 20
  | .warning => 30
  | .error => 40
  | .critical => 50

structure LogRecord where
  level : Level
  logger : String
  message : String
  deriving DecidableEq

/-- What happens on the network. -/
inductive Event (α : Type) where
  | open (timeout : Float)
  | post (p : Post)
  | sleep (seconds : α)
  | close

inductive Query where
  | page (offset limit : Int)
  | code (address : String) (chain : Int)
  deriving DecidableEq

inductive Signal where
  | interrupt
  | terminate
  deriving DecidableEq

def Signal.name : Signal → String
  | .interrupt => "SIGINT"
  | .terminate => "SIGTERM"

inductive Disturbance where
  | fault (f : Failure)
  | signal (s : Signal)

abbrev Row := List (String × Json)

/-- What the outside answers. Most answers are numbered from zero by how often they were asked for;
a node's reply may depend on all that was sent before, the newest first. -/
structure Outside (α : Type) where
  reply : List Post → Post → Reply α
  jitter : Nat → α
  stopwatch : Nat → Decimal.Number
  /-- The date in microseconds. -/
  date : Nat → Int
  stop : Nat → Bool
  disturbance : Nat → Option Disturbance
  rows : List Row
  codes : Int → String → List Json
  flushFault : Nat → Option Failure

/-- What a run has done so far. -/
structure Journal (α : Type) where
  clock : α
  /-- The messages that were sent, the newest first. -/
  posts : List Post := []
  trace : Array (Event α) := #[]
  logs : Array LogRecord := #[]
  queries : Array Query := #[]
  /-- How often the connection to the corpus was closed. -/
  disposals : Nat := 0
  disk : Disk := {}
  /-- The disk after every flush that was not made to fail for some other reason; nothing for a
  flush that the outside refused. -/
  flushes : Array (Option Disk) := #[]
  /-- How many flushes succeeded. -/
  flushed : Nat := 0
  jitters : Nat := 0
  stopwatches : Nat := 0
  dates : Nat := 0
  stops : Nat := 0
  flushCalls : Nat := 0
  /-- Whether a signal has asked the run to stop. -/
  stopped : Bool := false

namespace Journal

variable {α : Type}

def log (level : Level) (logger message : String) : Act (Journal α) Unit :=
  Act.change fun j => { j with logs := j.logs.push ⟨level, logger, message⟩ }

def note (e : Event α) : Act (Journal α) Unit :=
  Act.change fun j => { j with trace := j.trace.push e }

def draw (out : Outside α) : Act (Journal α) α :=
  Act.of fun j => (.ok (out.jitter j.jitters), { j with jitters := j.jitters + 1 })

def stopwatch (out : Outside α) : Act (Journal α) Decimal.Number :=
  Act.of fun j => (.ok (out.stopwatch j.stopwatches), { j with stopwatches := j.stopwatches + 1 })

def date (out : Outside α) : Act (Journal α) Int :=
  Act.of fun j => (.ok (out.date j.dates), { j with dates := j.dates + 1 })

def askStop (out : Outside α) : Act (Journal α) Bool :=
  Act.of fun j => (.ok (out.stop j.stops || j.stopped), { j with stops := j.stops + 1 })

def sleep [Seconds α] (seconds : α) : Act (Journal α) Unit :=
  Act.change fun j =>
    { j with clock := j.clock + seconds, trace := j.trace.push (.sleep seconds) }

/-- Sends a message; the clock goes on by the time that the reply takes. -/
def send [Seconds α] (out : Outside α) (p : Post) : Act (Journal α) Delivery :=
  Act.of fun j =>
    let reply := out.reply j.posts p
    (.ok reply.delivery,
      { j with
        clock := j.clock + reply.latency
        posts := p :: j.posts
        trace := j.trace.push (.post p) })

end Journal

end ProxyCensus
