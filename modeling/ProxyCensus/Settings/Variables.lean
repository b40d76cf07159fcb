import ProxyCensus.Failure
import ProxyCensus.Json.Reader
import ProxyCensus.Settings.VariableFile
import ProxyCensus.Text.LetterCase

/-!
# Variables

Settings come from variables of the environment and of a file of variables, and from JSON objects
that set several fields at once. A field can be set by its variable or by its own name. Of several
sources the object comes first; then the variable comes before the name, and for each of them the
environment before the file.
-/

namespace ProxyCensus

structure Variables where
  environment : List (String × String)
  file : List (String × Option String) := []

/-- How a field can be set: by its own name, or by its variable. -/
structure Slot where
  name : String
  varName : String

namespace Variables

/-- Whether two names are equal where the case of letters does not matter. -/
def sameName (a b : String) : Bool :=
  Text.lower a == Text.lower b

def last? {α : Type} (entries : List (String × α)) (name : String) : Option α :=
  (entries.reverse.find? fun e => sameName e.1 name).map (·.2)

def environment? (v : Variables) (name : String) : Option String :=
  last? v.environment name

/-- A variable of the file; one without a value is not set. -/
def file? (v : Variables) (name : String) : Option String :=
  (last? v.file name).join

/-- The value of an object for a field: that of its variable, or else the first one under its own
name in any case. The key is the name of the field if the object has that very name. -/
def ofObject? (object : List (String × Json)) (s : Slot) : Option (String × Json) :=
  let value := Json.lookup? object s.varName <|>
    (object.find? fun f => sameName f.1 s.name).map (·.2)
  let key := if (Json.lookup? object s.name).isSome then s.name else s.varName
  value.map (key, ·)

/-- What sets a field, with the key under which it does, given the object that sets several fields
at once. -/
def find? (v : Variables) (object : List (String × Json)) (s : Slot) : Option (String × Json) :=
  [ ofObject? object s,
    (v.environment? s.varName).map (s.varName, .str ·),
    (v.file? s.varName).map (s.varName, .str ·),
    (v.environment? s.name).map (s.name, .str ·),
    (v.file? s.name).map (s.name, .str ·) ].findSome? id

/-- The JSON value of a variable; null sets nothing. -/
def document? (text : Option String) : Except Failure (Option Json) :=
  match text.map Json.ofText with
  | none | some (.ok .null) => .ok none
  | some (.ok v) => .ok (some v)
  | some (.error fault) =>
    .error (if fault.cause.isDepth then .recursion fault.cause.message else .malformedSettings)

/-- The key of an object in the spelling of the variable that it names, if it names one. -/
def canonicalKey (slots : List Slot) (key : String) : String :=
  ((slots.map Slot.varName).find? (sameName key)).getD key

def canonical (slots : List Slot) (v : Json) : Json :=
  match v with
  | .obj fields => Json.ofFields (fields.map fun f => (canonicalKey slots f.1, f.2))
  | v => v

/-- Of two values for several fields the first one counts; two objects are put together. -/
def combine : Option Json → Option Json → Option Json
  | some (.obj first), some (.obj second) =>
    some (.obj (first.foldl (fun known f => Json.setField known f.1 f.2) second))
  | some v, _ => some v
  | none, w => w

/-- The value of the environment and the value of the file for several fields at once. -/
def objects (v : Variables) (name : String) (slots : List Slot) :
    Except Failure (Option Json × Option Json) := do
  let first ← document? (v.environment? name)
  let second ← document? (v.file? name)
  return (first.map (canonical slots), second.map (canonical slots))

end Variables

end ProxyCensus
