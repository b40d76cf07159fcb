import ProxyCensus.Validation

/-!
# Failures

Why an operation ended without a result. Every failure has a name and, where the sentence is part of
the behaviour, a sentence; together they are how a failure is shown in a message.
-/

namespace ProxyCensus

inductive NetworkFault where
  | timeout
  | client (message : String)
  | connection (message : String)
  | payload (message : String)
  /-- The address is none to which a connection could be made. -/
  | address (message : String)
  /-- The node cannot prove who it is. -/
  | certificate (message : String)
  deriving DecidableEq

/-- What is wrong with the address or the node itself, so that no other attempt will mend it. -/
def NetworkFault.lasting? : NetworkFault → Option String
  | .address m | .certificate m => some m
  | _ => none

inductive DiskFault where
  | notFound
  | isFolder
  | notFolder
  | exists
  | nameTooLong
  | busy
  | denied
  | full
  deriving DecidableEq

inductive Failure where
  /-- A value is of a kind that the operation cannot work with. -/
  | wrongKind
  /-- A value does not have the operation that was asked of it. -/
  | noOperation
  /-- A record lacks a key. -/
  | missingKey (key : String)
  | divisionByZero
  /-- A number is too large for a double. -/
  | overflow (message : String)
  | badValue (message : String)
  /-- The answer to a request may come right when it is asked again. -/
  | retriable (message : String)
  | badBytecode (message : String)
  /-- There is no room for another call. -/
  | recursion (message : String)
  /-- A request to a node failed. -/
  | request (message : String)
  /-- What a node answered cannot be read as an address. -/
  | unresolvable (message : String)
  | network (fault : NetworkFault)
  | invalid (report : Report)
  | malformedDocument
  | malformedSettings
  | disk (fault : DiskFault)
  | system (message : String)
  | connection (message : String)
  | runtime (message : String)
  | database (message : String)

namespace Failure

/-- An integer has no double next to it. -/
def largeInteger : Failure := .overflow "int too large to convert to float"

/-- A quotient of integers has no double next to it. -/
def largeQuotient : Failure := .overflow "integer division result too large for a float"

/-- The value of a computation with numbers, or the failure that stands for its lack. -/
def orElse {α : Type} (f : Failure) : Option α → Except Failure α
  | some a => .ok a
  | none => .error f

def name : Failure → String
  | .wrongKind => "TypeError"
  | .noOperation => "AttributeError"
  | .missingKey _ => "KeyError"
  | .divisionByZero => "ZeroDivisionError"
  | .overflow _ => "OverflowError"
  | .badValue _ => "ValueError"
  | .retriable _ => "RetriableValueError"
  | .badBytecode _ => "BytecodeParseError"
  | .recursion _ => "RecursionError"
  | .request _ => "RpcError"
  | .unresolvable _ => "ResolutionError"
  | .network .timeout => "TimeoutError"
  | .network (.client _) => "ClientError"
  | .network (.connection _) => "ClientConnectionError"
  | .network (.payload _) => "ClientPayloadError"
  | .network (.address _) => "InvalidURL"
  | .network (.certificate _) => "ClientConnectorCertificateError"
  | .invalid _ => "ValidationError"
  | .malformedDocument => "JSONDecodeError"
  | .malformedSettings => "SettingsError"
  | .disk .notFound => "FileNotFoundError"
  | .disk .isFolder => "IsADirectoryError"
  | .disk .notFolder => "NotADirectoryError"
  | .disk .exists => "FileExistsError"
  | .disk .nameTooLong => "OSError"
  | .disk .busy => "OSError"
  | .disk .denied => "PermissionError"
  | .disk .full => "OSError"
  | .system _ => "OSError"
  | .connection _ => "ConnectionError"
  | .runtime _ => "RuntimeError"
  | .database _ => "OperationalError"

def sentence? : Failure → Option String
  | .overflow m | .badValue m | .retriable m | .badBytecode m | .recursion m | .request m
  | .unresolvable m | .network (.client m) | .network (.connection m) | .network (.payload m)
  | .network (.address m) | .network (.certificate m) => some m
  | .system m | .connection m | .runtime m | .database m => some m
  | .network .timeout => some ""
  | _ => none

/-- How a failure reads inside a sentence. A report on a record is shown by a mark in its place. -/
def message (f : Failure) : String :=
  match f with
  | .invalid _ => "<ValidationError>"
  | .missingKey key => Text.quoted key
  | _ => f.sentence?.getD ""

def describe (f : Failure) : String :=
  match f with
  | .wrongKind | .noOperation => f.name ++ "(...)"
  | .network .timeout => f.name ++ "()"
  | _ => match f.sentence? with
    | some m => f.name ++ "(" ++ Text.quoted m ++ ")"
    | none => f.name ++ "(" ++ f.message ++ ")"

def isDataFault : Failure → Bool
  | .badBytecode _ | .invalid _ => true
  | _ => false

/-- Whether the operating system raised a failure. -/
def isSystem : Failure → Bool
  | .disk _ | .system _ | .connection _ => true
  | _ => false

end Failure

end ProxyCensus
