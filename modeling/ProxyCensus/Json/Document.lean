import ProxyCensus.Decimal.Number
import ProxyCensus.Failure

/-!
# Written documents

The documents that are stored as files and how they are written: two spaces a level, one field or
item a line, and the fields of an object sorted by their keys. A document holds more than JSON
knows, so writing can fail; then nothing is written.
-/

namespace ProxyCensus

inductive Key where
  | null
  | bool (b : Bool)
  | int (n : Int)
  | float (x : Float)
  | text (s : String)
  /-- A key that has no text. -/
  | foreign

def Key.number? : Key → Option Decimal.Number
  | .bool b => some (.whole (if b then 1 else 0))
  | .int n => some (.whole n)
  | .float x => some (.real x)
  | _ => none

/-- Whether two keys name the same field. Truth values are the numbers zero and one, and numbers of
both kinds are compared by their exact values. -/
def Key.same : Key → Key → Bool
  | .null, .null => true
  | .text a, .text b => a == b
  | a, b =>
    match a.number?, b.number? with
    | some x, some y => x.equal y
    | _, _ => false

inductive Document where
  | null
  | bool (b : Bool)
  | int (n : Int)
  | float (x : Float)
  | text (s : String)
  | list (items : List Document)
  /-- A list that is never changed. -/
  | tuple (items : List Document)
  | table (fields : List (Key × Document))
  /-- A value that has no written form. -/
  | foreign
  deriving Inhabited

/-- Numbers in files are positional from 0.00001 up to below 10 ^ 16. -/
def Decimal.Layout.file : Decimal.Layout := ⟨-5, 15, 1⟩

namespace Document

def wordText (n : Int) : Except Failure (List Char) :=
  if -0x8000000000000000 ≤ n ∧ n < 0x10000000000000000 then .ok (toString n).toList else .error .wrongKind

/-- A double; what is not finite becomes null. -/
def floatText (x : Float) : List Char :=
  if x.isFinite then (Decimal.Layout.file.text x).toList else "null".toList

def keyText : Key → Except Failure (List Char)
  | .null => .ok "null".toList
  | .bool b => .ok (if b then "true".toList else "false".toList)
  | .int n => wordText n
  | .float x => .ok (floatText x)
  | .text s => if Text.hasHalf s then .error .wrongKind else .ok s.toList
  | .foreign => .error .wrongKind

def escape (c : Char) : List Char :=
  if c == '"' then ['\\', '"']
  else if c == '\\' then ['\\', '\\']
  else if c == '\x08' then ['\\', 'b']
  else if c == '\x0c' then ['\\', 'f']
  else if c == '\n' then ['\\', 'n']
  else if c == '\r' then ['\\', 'r']
  else if c == '\t' then ['\\', 't']
  else if c.toNat < 32 then '\\' :: 'u' :: Hex.ofNat 4 c.toNat
  else [c]

def stringText (s : List Char) : List Char :=
  '"' :: s.flatMap escape ++ ['"']

def newLine (level : Nat) : List Char :=
  '\n' :: List.replicate (2 * level) ' '

/-- Parts between two marks, one a line; with no parts the marks stand together. -/
def block (left right : Char) (level : Nat) : List (List Char) → List Char
  | [] => [left, right]
  | part :: parts =>
    left :: newLine (level + 1) ++ part ++
      parts.flatMap (fun p => ',' :: newLine (level + 1) ++ p) ++ newLine level ++ [right]

/-- Whether a list or table may stand so many levels deep. Levels are counted in a byte, and the
last value of a byte is refused. Every list, tuple and table counts as a level, but a tuple may stand
at any. -/
def mayNest (level : Nat) : Bool :=
  (level + 1) % 256 != 255

/-- Whether a text is another one or comes before it, in the order of code points. -/
def upTo : List Char → List Char → Bool
  | [], _ => true
  | _ :: _, [] => false
  | a :: s, b :: t => if a.toNat == b.toNat then upTo s t else a.toNat < b.toNat

def sortFields (fields : List (List Char × List Char)) : List (List Char × List Char) :=
  fields.mergeSort fun a b => upTo a.1 b.1

def fieldText (field : List Char × List Char) : List Char :=
  stringText field.1 ++ ':' :: ' ' :: field.2

mutual

def write (level : Nat) : Document → Except Failure (List Char)
  | .null => .ok "null".toList
  | .bool b => .ok (if b then "true".toList else "false".toList)
  | .int n => wordText n
  | .float x => .ok (floatText x)
  | .text s => if Text.hasHalf s then .error .wrongKind else .ok (stringText s.toList)
  | .list items => do
    if !mayNest level then throw .wrongKind
    return block '[' ']' level (← writeItems (level + 1) items)
  | .tuple items => do return block '[' ']' level (← writeItems (level + 1) items)
  | .table fields => do
    if !mayNest level then throw .wrongKind
    return block '\x7b' '\x7d' level
      ((sortFields (← writeFields (level + 1) fields)).map fieldText)
  | .foreign => .error .wrongKind

def writeItems (level : Nat) : List Document → Except Failure (List (List Char))
  | [] => .ok []
  | v :: rest => do return (← write level v) :: (← writeItems level rest)

def writeFields (level : Nat) :
    List (Key × Document) → Except Failure (List (List Char × List Char))
  | [] => .ok []
  | (key, v) :: rest => do
    return (← keyText key, ← write level v) :: (← writeFields level rest)

end

def render (d : Document) : Except Failure String :=
  (write 0 d).map String.ofList

/-- Fields in the order in which their keys first came. Of equal keys the first one stays, with the
last value. -/
def ofFields (fields : List (Key × Document)) : Document :=
  .table (fields.foldl (fun known f =>
    if known.any (·.1.same f.1) then
      known.map fun k => if k.1.same f.1 then (k.1, f.2) else k
    else known ++ [f]) [])

/-- A count. -/
def count (n : Nat) : Document := .int n

def texts (items : List String) : Document :=
  .list (items.map .text)

end Document

end ProxyCensus
