import ProxyCensus.Address
import ProxyCensus.Evm.Sweep
import ProxyCensus.Pattern.Catalog

/-!
# Detection

Which patterns a contract's code shows. Marks are looked for in a fixed order: templates first, then
the instructions from the first one on. The first mark of a pattern decides how it is reported.
Instructions count only in code that delegates at all.
-/

namespace ProxyCensus

/-- A pattern that was found in code. -/
structure Match where
  pattern : Pattern
  /-- The place of the instruction or template that decided. -/
  offset : Int := 0
  slot : Option String := none
  selector : Option String := none
  /-- Known from the code alone only for clones. -/
  implementation : Option String := none
  deriving DecidableEq

namespace Detection

open Evm (Instruction)

/-- The bytes of a template's text. -/
def templateBytes (s : String) : Except Failure (List UInt8) :=
  (Hex.decode s.toList).mapError fun pos => .badValue (Hex.faultMessage pos)

/-- The address that code of a template's shape holds; code that is too short is not compared. -/
def templateAddress? (t : Template) (code : List UInt8) : Except Failure (Option String) :=
  if (code.take t.size).length < t.size then .ok none
  else do
    let front ← templateBytes t.front
    let back ← templateBytes t.back
    let start := t.addressOffset
    if code.take front.length == front && (code.drop (start + 20)).take back.length == back then
      return some (Address.ofBytes ((code.drop start).take 20))
    else return none

def cloneTarget? (code : List UInt8) : List Template → Except Failure (Option String)
  | [] => .ok none
  | t :: rest => do
    match ← templateAddress? t code with
    | some address => return some address
    | none => cloneTarget? code rest

def templateMatches (code : List UInt8) : List Definition → Except Failure (List Match)
  | [] => .ok []
  | d :: rest => do
    match ← cloneTarget? code d.templates with
    | some address =>
      let others ← templateMatches code rest
      return { pattern := d.pattern, implementation := some address } :: others
    | none => templateMatches code rest

/-- The last row of a catalog that lists a mark: a later row takes a mark over. -/
def owner? (catalog : List Definition) (lists : Definition → Bool) : Option Definition :=
  catalog.reverse.find? lists

def wordOwner? (catalog : List Definition) (word : String) : Option Definition :=
  owner? catalog fun d => d.words.any (Text.lower · == word)

def selectorOwner? (catalog : List Definition) (selector : String) : Option Definition :=
  owner? catalog fun d => d.selectors.any (Text.lower · == selector)

def sequenceOwner? (catalog : List Definition) (names : List String) : Option Definition :=
  owner? catalog fun d => d.sequences.contains names

def longestSequence (catalog : List Definition) : Nat :=
  (catalog.flatMap fun d => d.sequences.map List.length).foldl max 0

/-- The match of a row whose mark was found at the given place. A beacon is found through its slot
only when the slot's word was seen, and otherwise through the selector that was seen. -/
def matchAt (d : Definition) (offset : Nat) (word selector : Option String) : Match :=
  match d.method with
  | .beacon =>
    if word.isSome then { pattern := d.pattern, offset, slot := d.slot }
    else { pattern := d.pattern, offset, selector }
  | .accessorCall | .facetEnumeration =>
    { pattern := d.pattern, offset, slot := d.slot, selector := d.accessor }
  | .bytecode | .storageSlot => { pattern := d.pattern, offset, slot := d.slot }

def operandMatches (catalog : List Definition) (i : Instruction) : List Match :=
  let operand := String.ofList ('0' :: 'x' :: Hex.encode i.operand)
  if i.opcode == Evm.push32 then
    ((wordOwner? catalog operand).map (matchAt · i.offset (some operand) none)).toList
  else if i.opcode == Evm.push4 then
    ((selectorOwner? catalog operand).map (matchAt · i.offset none (some operand))).toList
  else []

/-- The matches of the rows of operations that end with the given instructions, from the shortest
row of two on. The instructions are given backwards. -/
def sequenceMatches (catalog : List Definition) (recent : List Instruction) : List Match :=
  (List.range (recent.length - 1)).filterMap fun n =>
    let row := (recent.take (n + 2)).reverse
    match row with
    | first :: _ =>
      (sequenceOwner? catalog (row.map (·.name))).map (matchAt · first.offset none none)
    | [] => none

/-- The matches in instructions, given those that were passed before, backwards. -/
def instructionMatches (catalog : List Definition) (longest : Nat) (passed : List Instruction) :
    List Instruction → List Match
  | [] => []
  | i :: rest =>
    let recent := (i :: passed).take longest
    operandMatches catalog i ++ sequenceMatches catalog recent ++
      instructionMatches catalog longest recent rest

/-- All matches in the order in which the marks are looked for. A pattern may come several times. -/
def allMatches (catalog : List Definition) (code : List UInt8) : Except Failure (List Match) := do
  let clones ← templateMatches code catalog
  let instructions := Evm.sweep code
  if instructions.any (·.delegates) then
    return clones ++ instructionMatches catalog (longestSequence catalog) [] instructions
  else return clones

/-- The first match of each pattern, in the order of the patterns. -/
def firstMatches (found : List Match) : List Match :=
  Pattern.all.filterMap fun p => found.find? (·.pattern == p)

def inCode (catalog : List Definition) (code : List UInt8) : Except Failure (List Match) :=
  if code.isEmpty then .ok [] else (allMatches catalog code).map firstMatches

/-- The bytes of a contract's code, given as text. -/
def codeBytes (bytecode : String) : Except Failure (List UInt8) :=
  (Hex.decode (Hex.clean bytecode)).mapError fun pos =>
    .badBytecode s!"Bytecode is not valid hex: {Hex.faultMessage pos}"

def inText (catalog : List Definition) (bytecode : String) : Except Failure (List Match) := do
  inCode catalog (← codeBytes bytecode)

end Detection

end ProxyCensus
