import ProxyCensus.Json.Literal
import ProxyCensus.Text.Integer

/-!
# Checked fields

Reading a record from the fields of a JSON object. Every field is read on its own, so all that is
wrong with a record is reported together, in the order of the fields.
-/

namespace ProxyCensus

inductive Complaint where
  | missing
  | notText
  /-- A text holds half of a surrogate pair. -/
  | brokenText
  | notInteger
  | notIntegerText
  /-- An integer is too large to be read. -/
  | tooLarge
  | fraction
  | notFinite
  | notNumber
  | notNumberText
  | notList
  | notTuple
  | notObject
  | notChoice
  | tooSmall
  | belowLeast
  | notDate
  | notDateText
  /-- A number is no point in time that has a date. -/
  | dateless
  | refused (reason : String)

def Complaint.code : Complaint → String
  | .missing => "missing"
  | .notText => "string_type"
  | .brokenText => "string_unicode"
  | .notInteger => "int_type"
  | .notIntegerText => "int_parsing"
  | .tooLarge => "int_parsing_size"
  | .fraction => "int_from_float"
  | .notFinite => "finite_number"
  | .notNumber => "float_type"
  | .notNumberText => "float_parsing"
  | .notList => "list_type"
  | .notTuple => "tuple_type"
  | .notObject => "model_type"
  | .notChoice => "enum"
  | .tooSmall => "greater_than"
  | .belowLeast => "greater_than_equal"
  | .notDate => "datetime_type"
  | .notDateText => "datetime_from_date_parsing"
  | .dateless => "datetime_parsing"
  | .refused _ => "value_error"

inductive Step where
  | field (name : String)
  | item (index : Nat)

structure Issue where
  path : List Step
  complaint : Complaint

/-- All that is wrong with a record of the named kind. -/
structure Report where
  title : String
  issues : List Issue

/-- A value, or all that is wrong with it. -/
abbrev Checked (α : Type) := Except (List Issue) α

namespace Checked

variable {α β : Type}

def ap (f : Checked (α → β)) (x : Checked α) : Checked β :=
  match f, x with
  | .ok f, .ok x => .ok (f x)
  | .ok _, .error e => .error e
  | .error d, .ok _ => .error d
  | .error d, .error e => .error (d ++ e)

def under (step : Step) (x : Checked α) : Checked α :=
  x.mapError fun issues => issues.map fun i => { i with path := step :: i.path }

def complain (c : Complaint) : Checked α :=
  .error [⟨[], c⟩]

def itemsFrom (read : Json → Checked α) : Nat → List Json → Checked (List α)
  | _, [] => .ok []
  | i, v :: rest => ap ((under (.item i) (read v)).map List.cons) (itemsFrom read (i + 1) rest)

def listOr (c : Complaint) (read : Json → Checked α) : Json → Checked (List α)
  | .arr items => itemsFrom read 0 items
  | _ => complain c

def list (read : Json → Checked α) : Json → Checked (List α) :=
  listOr .notList read

/-- Reads a list that is never changed. -/
def tuple (read : Json → Checked α) : Json → Checked (List α) :=
  listOr .notTuple read

/-- Reads what a text spells; a text that holds half of a surrogate pair spells nothing. -/
def spelled (s : String) (read : String → Checked α) : Checked α :=
  if Text.hasHalf s then complain .brokenText else read s

def text : Json → Checked String
  | .str s => spelled s .ok
  | _ => complain .notText

def optional (read : Json → Checked α) : Json → Checked (Option α)
  | .null => .ok none
  | v => (read v).map some

/-- The integer that is equal to a double. Those at the ends of the 64-bit integers and beyond are
not taken, because doubles are too far apart there. -/
def wholeDouble (x : Float) : Checked Int :=
  match Decimal.truncate? x with
  | none => complain .notFinite
  | some n =>
    if !Decimal.isWhole x then complain .fraction
    else if -0x8000000000000000 < n ∧ n < 0x8000000000000000 then .ok n
    else complain .tooLarge

/-- Reads an integer: an integer, a truth value, a number without a fraction, or a text that spells
an integer. -/
def int : Json → Checked Int
  | .int n => .ok n
  | .bool b => .ok (if b then 1 else 0)
  | .float x => wholeDouble x
  | .str s => spelled s fun s =>
    match Text.strictInteger s with
    | .ok n => .ok n
    | .error .shape => complain .notIntegerText
    | .error (.tooLong _) => complain .tooLarge
  | _ => complain .notInteger

/-- Reads a double: a number, a truth value, or a text that spells a number. An integer beyond the
largest double is none. -/
def float : Json → Checked Float
  | .float x => .ok x
  | .int n =>
    match Decimal.ofInt? n with
    | some x => .ok x
    | none => complain .notNumber
  | .bool b => .ok (if b then 1 else 0)
  | .str s => spelled s fun s =>
    match Decimal.strictOfText? s with
    | some x => .ok x
    | none => complain .notNumberText
  | _ => complain .notNumber

def positive (v : Json) : Checked Int := do
  let n ← int v
  if 0 < n then .ok n else complain .tooSmall

def nonNegative (v : Json) : Checked Float := do
  let x ← float v
  if 0 ≤ x then .ok x else complain .belowLeast

def choice (ofName? : String → Option α) : Json → Checked α
  | .str s => match ofName? s with
    | some a => .ok a
    | none => complain .notChoice
  | _ => complain .notChoice

def required (fields : List (String × Json)) (name : String) (read : Json → Checked α) :
    Checked α :=
  under (.field name) (match Json.lookup? fields name with
    | some v => read v
    | none => complain .missing)

def orElse (fields : List (String × Json)) (name : String) (default : α)
    (read : Json → Checked α) : Checked α :=
  match Json.lookup? fields name with
  | some v => under (.field name) (read v)
  | none => .ok default

def object (read : List (String × Json) → Checked α) : Json → Checked α
  | .obj fields => read fields
  | _ => complain .notObject

end Checked

end ProxyCensus
