import ProxyCensus.Json.Lexeme

/-!
# Reading JSON text

A machine with a stack of open arrays and objects takes the lexemes of a text one by one. The first
lexeme that does not fit decides the fault, which names what was expected and where.
-/

namespace ProxyCensus.Json

/-- An array or object that is still open, with what it holds so far, in reverse. -/
inductive Frame where
  | array (items : List Json)
  | object (fields : List (String × Json)) (key : String)

/-- What the machine expects next. A value or a name may give way to the closing mark only right
after the opening one. -/
inductive Mode where
  | value (mayClose : Bool)
  | name (mayClose : Bool)
  | colon (key : String)
  | after (v : Json)

/-- The machine: the open arrays and objects, the innermost first, and what is expected. -/
structure Reader where
  stack : List Frame
  mode : Mode

def Reader.mayOpen (d : Dialect) (r : Reader) : Bool :=
  match d.depth with
  | some limit => r.stack.length < limit
  | none => true

def Reader.stepValue (d : Dialect) (r : Reader) (mayClose : Bool) (t : Lexeme) (place : List Char) :
    Except Fault Reader :=
  match t, mayClose, r.stack with
  | .scalar v, _, _ => .ok { r with mode := .after v }
  | .text s, _, _ => .ok { r with mode := .after (.str s) }
  | .openArray, _, _ =>
    if r.mayOpen d then .ok ⟨.array [] :: r.stack, .value true⟩
    else .error ⟨.deepArray, place.length⟩
  | .openObject, _, _ =>
    if r.mayOpen d then .ok ⟨.object [] "" :: r.stack, .name true⟩
    else .error ⟨.deepObject, place.length⟩
  | .closeArray, true, _ :: stack => .ok ⟨stack, .after (.arr [])⟩
  | .bad fault, _, _ => .error fault
  | _, _, _ => .error ⟨.noValue, place.length⟩

def Reader.stepName (r : Reader) (mayClose : Bool) (t : Lexeme) (place : List Char) :
    Except Fault Reader :=
  match t, mayClose, r.stack with
  | .text s, _, _ => .ok { r with mode := .colon s }
  | .closeObject, true, _ :: stack => .ok ⟨stack, .after (.obj [])⟩
  | .bad fault, _, _ => .error (if fault.cause.inString then fault else ⟨.noName, place.length⟩)
  | _, _, _ => .error ⟨.noName, place.length⟩

def Reader.stepColon (r : Reader) (key : String) (t : Lexeme) (place : List Char) :
    Except Fault Reader :=
  match t, r.stack with
  | .colon, .object fields _ :: stack => .ok ⟨.object fields key :: stack, .value false⟩
  | _, _ => .error ⟨.noColon, place.length⟩

def Reader.stepAfter (r : Reader) (v : Json) (t : Lexeme) (place : List Char) : Except Fault Reader :=
  match r.stack, t with
  | [], _ => .error ⟨.extra, place.length⟩
  | .array items :: stack, .comma => .ok ⟨.array (v :: items) :: stack, .value false⟩
  | .array items :: stack, .closeArray => .ok ⟨stack, .after (.arr (v :: items).reverse)⟩
  | .object fields key :: stack, .comma =>
    .ok ⟨.object ((key, v) :: fields) "" :: stack, .name false⟩
  | .object fields key :: stack, .closeObject =>
    .ok ⟨stack, .after (ofFields ((key, v) :: fields).reverse)⟩
  | _ :: _, _ => .error ⟨.noComma, place.length⟩

def Reader.step (d : Dialect) (r : Reader) (t : Lexeme × List Char) : Except Fault Reader :=
  match r.mode with
  | .value mayClose => r.stepValue d mayClose t.1 t.2
  | .name mayClose => r.stepName mayClose t.1 t.2
  | .colon key => r.stepColon key t.1 t.2
  | .after v => r.stepAfter v t.1 t.2

def Reader.finish (r : Reader) : Except Fault Json :=
  match r.mode, r.stack with
  | .value _, _ => .error ⟨.noValue, 0⟩
  | .name _, _ => .error ⟨.noName, 0⟩
  | .colon _, _ => .error ⟨.noColon, 0⟩
  | .after v, [] => .ok v
  | .after _, _ :: _ => .error ⟨.noComma, 0⟩

def read (d : Dialect) (s : List Char) : Except Fault Json :=
  match s with
  | '\ufeff' :: _ => .error ⟨.byteOrderMark, s.length⟩
  | _ => do
    let r ← (lexemes d s).foldlM (Reader.step d) ⟨[], .value false⟩
    r.finish

def Cause.message : Cause → String
  | .noValue => "Expecting value"
  | .noName => "Expecting property name enclosed in double quotes"
  | .noColon => "Expecting ':' delimiter"
  | .noComma => "Expecting ',' delimiter"
  | .openString => "Unterminated string starting at"
  | .control => "Invalid control character at"
  | .badEscape => "Invalid \\escape"
  | .badUnicode => "Invalid \\uXXXX escape"
  | .extra => "Extra data"
  | .byteOrderMark => "Unexpected UTF-8 BOM (decode using utf-8-sig)"
  | .tooLong digits => Text.tooLongMessage digits
  | .deepArray =>
    "maximum recursion depth exceeded while decoding a JSON array from a unicode string"
  | .deepObject =>
    "maximum recursion depth exceeded while decoding a JSON object from a unicode string"
  | .other => "Invalid value"

/-- The text of a fault in `s`: its cause, line, column and place. Lines and columns count from one,
places from zero. The place of an integer with too many digits is not told, and neither is the place
where the reader could go no deeper. -/
def Fault.message (s : String) (f : Fault) : String :=
  match f.cause with
  | .tooLong _ | .deepArray | .deepObject => f.cause.message
  | cause =>
    let place := s.toList.length - f.left
    let before := s.toList.take place
    let line := before.count '\n' + 1
    let column := (before.reverse.takeWhile (· != '\n')).length + 1
    s!"{cause.message}: line {line} column {column} (char {place})"

/-- Reads a text from the network, with room for so many arrays and objects inside each other. -/
def ofTextWithin (room : Nat) (s : String) : Except Fault Json :=
  read (.lenient room) s.toList

/-- The room that a reader has at least: a thousand levels, less those of the calls that have led to
it. -/
def room : Nat := 960

def ofText (s : String) : Except Fault Json :=
  ofTextWithin room s

def ofFile? (s : String) : Option Json :=
  (read .strict s.toList).toOption

def ofBytes? (bytes : ByteArray) : Option Json :=
  (String.fromUTF8? bytes).bind ofFile?

end ProxyCensus.Json
