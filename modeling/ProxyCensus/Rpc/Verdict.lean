import ProxyCensus.Failure
import ProxyCensus.Json.Reader
import ProxyCensus.Rpc.Request

/-!
# Verdicts on replies

What a reply to a request means. A reply either decides the request, with a value or with a failure,
or it decides nothing and the request is sent again.
-/

namespace ProxyCensus

inductive Body where
  /-- Nothing but blanks. -/
  | empty
  | document (v : Json)
  /-- A text that is no document, with the reason. -/
  | malformed (reason : String)
  /-- A text in which more arrays and objects stand inside each other than the reader goes into, with
  what it says then. -/
  | tooDeep (reason : String)

/-- Reads the text of a body, with room for so many arrays and objects inside each other. -/
def Body.ofTextWithin (room : Nat) (s : String) : Body :=
  let s := String.ofList (Text.trimBy Text.isPlainSpace s.toList)
  if s.isEmpty then .empty
  else match Json.ofTextWithin room s with
    | .ok v => .document v
    | .error fault =>
      if fault.cause.isDepth then .tooDeep (fault.message s) else .malformed (fault.message s)

def Body.ofText (s : String) : Body :=
  ofTextWithin Json.room s

def Body.value? : Body → Except Failure Json
  | .empty => .ok .null
  | .document v => .ok v
  | .malformed reason => .error (.badValue reason)
  | .tooDeep reason => .error (.recursion reason)

/-- What came back: a failure, or a status with a body. -/
inductive Delivery where
  | fault (f : Failure)
  | http (status : Int) (body : Body)

structure Reply (α : Type) where
  latency : α
  delivery : Delivery

namespace Rpc

/-- Whether an error of this code may pass when the request is sent again. Only integers are codes:
an internal error, and the errors of the server but for the first one, which reports a revert. -/
def isRetriable : Json → Bool
  | .int n => n == -32603 || (-32099 ≤ n && n < -32000)
  | _ => false

/-- What the object in a reply says: the result, unless it is null, or why there is none. -/
def result (response : List (String × Json)) : Except Failure Json :=
  let reply := Json.obj response
  let complaint := s!"result is None in response {reply.literal}."
  match reply.getD "result" with
  | .null =>
    match reply.getD "error" with
    | .null => .error (.retriable (complaint ++ " Make sure Ethereum node is synced."))
    | .obj error =>
      if isRetriable ((Json.obj error).getD "code") then .error (.retriable complaint)
      else .error (.badValue complaint)
    | _ => .error (.badValue complaint)
  | v => .ok v

/-- What the value in a reply says; only objects can be asked. -/
def resultOf : Json → Except Failure Json
  | .obj response => result response
  | _ => .error .noOperation

/-- What a reply means for its request. -/
inductive Verdict where
  | answer (v : Json)
  /-- The request has failed. -/
  | refuse (f : Failure)
  /-- The node asks to slow down. -/
  | busy
  | status (code : Int)
  /-- The node could not answer yet. -/
  | unready (reason : String)
  | broken (fault : NetworkFault)

/-- What a failure on the way means. The faults of a network pass, but for those of the address or
of the node itself. -/
def judgeFailure (method url : String) : Failure → Verdict
  | .retriable m => .unready m
  | .badValue m => .refuse (.request s!"{method} failed at {url}: {m}")
  | .network fault =>
    match fault.lasting? with
    | some m => .refuse (.request s!"{method} failed at {url}: {m}")
    | none => .broken fault
  | f => .refuse f

def judgeBody (method url : String) (body : Body) : Verdict :=
  match body.value? with
  | .error f => judgeFailure method url f
  | .ok (.obj response) =>
    match result response with
    | .ok v => .answer v
    | .error f => judgeFailure method url f
  | .ok v =>
    .refuse (.request s!"Malformed JSON-RPC response for {method} at {url}: {v.literal}")

def judge (method url : String) : Delivery → Verdict
  | .fault f => judgeFailure method url f
  | .http status body =>
    if status == 200 then judgeBody method url body
    else if status == 429 then .busy
    else .status status

end Rpc

end ProxyCensus
