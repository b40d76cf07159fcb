import ProxyCensus.Text.Blank

/-!
# Files of variables

A file of variables holds one binding a line: a name, an equals sign and a value, with blanks around
each. The word `export` may stand in front, a value may be quoted and then reach over several lines,
and a mark `#` begins a remark. A line that does not fit is left out. Values may refer to variables
that are already known.
-/

namespace ProxyCensus.VariableFile

open Text (isBlank)

structure Binding where
  name : List Char
  value : Option (List Char)

/-- Whether a character is a blank within a line. -/
def isInlineBlank (c : Char) : Bool :=
  isBlank c && c != '\n'

/-- Every end of a line becomes the same mark. -/
def unifyLines : List Char → List Char
  | '\r' :: '\n' :: r => '\n' :: unifyLines r
  | '\r' :: r => '\n' :: unifyLines r
  | c :: r => c :: unifyLines r
  | [] => []

/-- The text up to the closing quote and what follows it. A character with a backslash in front does
not close. -/
def untilQuote (quote : Char) : List Char → Option (List Char × List Char)
  | [] => none
  | '\\' :: c :: r => (untilQuote quote r).map fun p => ('\\' :: c :: p.1, p.2)
  | c :: r =>
    if c == quote then some ([], r) else (untilQuote quote r).map fun p => (c :: p.1, p.2)

def singleEscape? (c : Char) : Option Char :=
  if c == '\\' || c == '\'' then some c else none

def doubleEscape? : Char → Option Char
  | '"' => some '"'
  | 'a' => some '\x07'
  | 'b' => some '\x08'
  | 'f' => some '\x0c'
  | 'n' => some '\n'
  | 'r' => some '\r'
  | 't' => some '\t'
  | 'v' => some '\x0b'
  | c => singleEscape? c

def unescape (escape? : Char → Option Char) : List Char → List Char
  | '\\' :: c :: r =>
    match escape? c with
    | some d => d :: unescape escape? r
    | none => '\\' :: unescape escape? (c :: r)
  | c :: r => c :: unescape escape? r
  | [] => []

/-- A text up to the first blank that leads to a remark. -/
def dropRemark : List Char → List Char
  | [] => []
  | c :: r =>
    if isBlank c && (r.dropWhile isBlank).head? == some '#' then [] else c :: dropRemark r

def dropEnd (s : List Char) : List Char :=
  (s.reverse.dropWhile isBlank).reverse

/-- What a step takes off a text, with the rest of the text; on failure the place where it failed. -/
abbrev Taken (α : Type) := Except (List Char) (α × List Char)

/-- Drops the word `export` with the blanks that follow it; without blanks it is a name. -/
def dropExport (s : List Char) : List Char :=
  match s with
  | 'e' :: 'x' :: 'p' :: 'o' :: 'r' :: 't' :: c :: r =>
    if isInlineBlank c then r.dropWhile isInlineBlank else s
  | _ => s

def isNameChar (c : Char) : Bool :=
  !isBlank c && c != '=' && c != '#'

/-- Takes a name; a remark has none. -/
def takeName (s : List Char) : Taken (Option (List Char)) :=
  match s with
  | '#' :: _ => .ok (none, s)
  | '\'' :: r =>
    match r.span (· != '\'') with
    | (c :: body, _ :: rest) => .ok (some (c :: body), rest)
    | _ => .error s
  | _ =>
    match s.span isNameChar with
    | ([], _) => .error s
    | (body, rest) => .ok (some body, rest)

/-- Takes a value in quotes, given the quote, what may be escaped and what follows the quote. -/
def takeQuoted (quote : Char) (escape? : Char → Option Char) (s : List Char) : Taken (List Char) :=
  match untilQuote quote s with
  | some (body, rest) => .ok (unescape escape? body, rest)
  | none => .error s

/-- Takes a value with the blanks in front of it. Without quotes it reaches to a remark or to the end
of the line; a remark needs a blank in front of it. -/
def takeValue (s : List Char) : Taken (List Char) :=
  match s.dropWhile isInlineBlank with
  | '\'' :: r => takeQuoted '\'' singleEscape? r
  | '"' :: r => takeQuoted '"' doubleEscape? r
  | _ =>
    let (line, rest) := s.span (· != '\n')
    .ok ((dropEnd (dropRemark line)).dropWhile isBlank, rest)

def takeAssignment (s : List Char) : Taken (Option (List Char)) :=
  match s with
  | '=' :: r => (takeValue r).map fun t => (some t.1, t.2)
  | _ => .ok (none, s)

def takeEnd (s : List Char) : Taken Unit :=
  match s.dropWhile isInlineBlank with
  | [] => .ok ((), [])
  | '\n' :: rest => .ok ((), rest)
  | '#' :: r => .ok ((), (r.dropWhile (· != '\n')).drop 1)
  | _ => .error s

def takeLine (s : List Char) : Except (List Char) (Option Binding × List Char) := do
  let (name, s) ← takeName (dropExport s)
  let (value, s) ← takeAssignment (s.dropWhile isInlineBlank)
  let (_, s) ← takeEnd s
  return (name.map (⟨·, value⟩), s)

/-- Takes the next line. A line that does not fit ends where the line ends on which it failed. -/
def next (s : List Char) : Option Binding × List Char :=
  match s.dropWhile isBlank with
  | [] => (none, [])
  | c :: r =>
    match takeLine (c :: r) with
    | .ok taken => taken
    | .error place => (none, (place.dropWhile (· != '\n')).drop 1)

/-- The bindings of a text, where so many characters still belong to the line that was taken last. -/
def bindingsFrom : Nat → List Char → List Binding
  | _, [] => []
  | left + 1, _ :: r => bindingsFrom left r
  | 0, c :: r =>
    let (binding, rest) := next (c :: r)
    binding.toList ++ bindingsFrom (r.length - rest.length) r

/-- A reference to a variable: its name, what to take when it is not known, and its length. -/
structure Reference where
  name : List Char
  fallback : List Char
  length : Nat

def reference? (s : List Char) : Option Reference :=
  match s with
  | '$' :: '\x7b' :: r =>
    let (name, rest) := r.span fun c => c != '\x7d' && c != ':'
    match rest with
    | '\x7d' :: _ => some ⟨name, [], name.length + 3⟩
    | ':' :: '-' :: rest =>
      match rest.span (· != '\x7d') with
      | (fallback, _ :: _) => some ⟨name, fallback, name.length + fallback.length + 5⟩
      | (_, []) => none
    | _ => none
  | _ => none

/-- Replaces the references in a text by what they stand for; so many characters still belong to the
last one. -/
def expandFrom (value : Reference → List Char) : Nat → List Char → List Char
  | _, [] => []
  | left + 1, _ :: r => expandFrom value left r
  | 0, c :: r =>
    match reference? (c :: r) with
    | some ref => value ref ++ expandFrom value (ref.length - 1) r
    | none => c :: expandFrom value 0 r

def last? {α : Type} (entries : List (String × α)) (name : String) : Option α :=
  (entries.reverse.find? (·.1 == name)).map (·.2)

/-- What a reference stands for: a variable of the file comes before one of the environment. One
that is named without a value is empty. -/
def refer (environment : List (String × String)) (known : List (String × Option String))
    (ref : Reference) : List Char :=
  let name := String.ofList ref.name
  match last? known name, last? environment name with
  | some value, _ => (value.getD "").toList
  | none, some value => value.toList
  | none, none => ref.fallback

def define (environment : List (String × String)) (known : List (String × Option String))
    (b : Binding) : List (String × Option String) :=
  let value := b.value.map fun v => String.ofList (expandFrom (refer environment known) 0 v)
  known ++ [(String.ofList b.name, value)]

/-- Drops the mark for the order of bytes at the start of a file. -/
def dropMark : List Char → List Char
  | '\ufeff' :: r => r
  | s => s

/-- The variables of a file, in order; a variable may come without a value. -/
def read (environment : List (String × String)) (text : String) :
    List (String × Option String) :=
  (bindingsFrom 0 (unifyLines (dropMark text.toList))).foldl (define environment) []

end ProxyCensus.VariableFile
