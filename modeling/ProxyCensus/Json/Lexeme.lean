import ProxyCensus.Json.Basic
import ProxyCensus.Text.Integer

/-!
# Lexemes of JSON text

Cutting a text into marks, strings, numbers and words. A lexeme is as long as possible; where none
starts, or a string has a fault, the cut ends with that fault, so that the reader reports whichever
of two faults it meets first. Places are counted by the characters that are left.
-/

namespace ProxyCensus.Json

inductive Cause where
  | noValue
  | noName
  | noColon
  | noComma
  | openString
  | control
  | badEscape
  | badUnicode
  | extra
  | byteOrderMark
  /-- An integer has more digits than are read. -/
  | tooLong (digits : Nat)
  /-- An array stands inside more others than the reader goes into. -/
  | deepArray
  /-- An object stands inside more others than the reader goes into. -/
  | deepObject
  | other
  deriving DecidableEq

def Cause.inString : Cause → Bool
  | .openString | .control | .badEscape | .badUnicode => true
  | _ => false

/-- Whether the reader could go no deeper. -/
def Cause.isDepth : Cause → Bool
  | .deepArray | .deepObject => true
  | _ => false

structure Fault where
  cause : Cause
  left : Nat

/-- What a dialect of JSON admits beyond the strict grammar. -/
structure Dialect where
  /-- Whether the words for infinity and no number are numbers. -/
  words : Bool
  /-- Whether integers beyond 64 bits keep their value, as long as they do not have too many
  digits; otherwise they are doubles. -/
  bigIntegers : Bool
  /-- Whether numbers beyond the largest double are infinite. -/
  overflow : Bool
  /-- Whether half of a surrogate pair may stand alone. -/
  loneSurrogates : Bool
  /-- How deeply arrays and objects may be nested. -/
  depth : Option Nat

/-- The dialect of answers from the network. How deeply they may be nested is not a rule of the
dialect: it depends on how much room is left to the reader where it is called. -/
def Dialect.lenient (room : Nat) : Dialect := ⟨true, true, true, true, some room⟩

/-- The dialect of files. -/
def Dialect.strict : Dialect := ⟨false, false, false, false, some 1024⟩

def isSpace (c : Char) : Bool :=
  c == ' ' || c == '\t' || c == '\n' || c == '\r'

/-- The meaning of an escape of one letter. -/
def simpleEscape? : Char → Option Char
  | '"' => some '"'
  | '\\' => some '\\'
  | '/' => some '/'
  | 'b' => some '\x08'
  | 'f' => some '\x0c'
  | 'n' => some '\n'
  | 'r' => some '\r'
  | 't' => some '\t'
  | _ => none

/-- The code unit that four hexadecimal digits spell. A string cannot end right after them without
its quote, so at least one more character has to follow. -/
def codeUnit? : List Char → Option (Nat × List Char)
  | a :: b :: c :: d :: e :: rest => do
    let a ← Hex.value? a
    let b ← Hex.value? b
    let c ← Hex.value? c
    let d ← Hex.value? d
    return (((a * 16 + b) * 16 + c) * 16 + d, e :: rest)
  | _ => none

theorem codeUnit?_length {s rest : List Char} {n : Nat} (h : codeUnit? s = some (n, rest)) :
    rest.length < s.length := by
  unfold codeUnit? at h
  split at h
  · simp only [Option.bind_eq_bind, Option.bind_eq_some_iff, Option.pure_def, Option.some.injEq,
      Prod.mk.injEq] at h
    obtain ⟨_, _, _, _, _, _, _, _, _, rfl⟩ := h
    simp only [List.length_cons]
    omega
  · contradiction

open Text (isHigh isLow isHalf ofHalf)

/-- The character of a code unit that stands alone. Half of a pair has none of its own; where the
dialect admits it, another character stands for it. -/
def lone (d : Dialect) (n : Nat) (rest : List Char) : Except Fault (Char × List Char) :=
  if isHalf n then
    if d.loneSurrogates then .ok (ofHalf n, rest) else .error ⟨.other, rest.length⟩
  else .ok (Char.ofNat n, rest)

/-- The character of an escape that starts after `\u`, and what follows it. Two escapes that form a
pair are one character. The fault lies at the letter before the digits. -/
def unicodeEscape (d : Dialect) (s : List Char) : Except Fault (Char × List Char) :=
  match codeUnit? s with
  | none => .error ⟨.badUnicode, s.length + 1⟩
  | some (n, rest) =>
    if isHigh n then
      match rest with
      | '\\' :: 'u' :: tail =>
        match codeUnit? tail with
        | none =>
          if tail.length ≤ 4 then lone d n rest else .error ⟨.badUnicode, tail.length + 1⟩
        | some (m, rest') =>
          if isLow m then .ok (Char.ofNat (0x10000 + (n - 0xd800) * 0x400 + (m - 0xdc00)), rest')
          else lone d n rest
      | _ => lone d n rest
    else lone d n rest

theorem lone_length {d : Dialect} {n : Nat} {s rest : List Char} {c : Char}
    (h : lone d n s = .ok (c, rest)) : rest = s := by
  unfold lone at h
  split at h
  · split at h
    · injection h with h; injection h with _ h; exact h.symm
    · contradiction
  · injection h with h; injection h with _ h; exact h.symm

theorem unicodeEscape_length {d : Dialect} {s rest : List Char} {c : Char}
    (h : unicodeEscape d s = .ok (c, rest)) : rest.length < s.length := by
  unfold unicodeEscape at h
  split at h
  · contradiction
  · rename_i n r hn
    have hr := codeUnit?_length hn
    split at h
    · split at h
      · rename_i tail
        split at h
        · split at h
          · exact lone_length h ▸ hr
          · contradiction
        · rename_i m r' hm
          have hr' := codeUnit?_length hm
          split at h
          · injection h with h
            injection h with _ h
            subst h
            simp only [List.length_cons] at hr
            omega
          · exact lone_length h ▸ hr
      · exact lone_length h ▸ hr
    · exact lone_length h ▸ hr

/-- The characters of a string up to its closing quote and what follows that, given the text from its
opening quote on and what has been read, in reverse. -/
def stringFrom (d : Dialect) (start read : List Char) (s : List Char) :
    Except Fault (String × List Char) :=
  match s with
  | [] => .error ⟨.openString, start.length⟩
  | '"' :: rest => .ok (String.ofList read.reverse, rest)
  | '\\' :: rest =>
    match rest with
    | [] => .error ⟨.openString, start.length⟩
    | 'u' :: rest =>
      match h : unicodeEscape d rest with
      | .error fault => .error fault
      | .ok (c, rest') =>
        have := unicodeEscape_length h
        stringFrom d start (c :: read) rest'
    | e :: rest =>
      match simpleEscape? e with
      | some c => stringFrom d start (c :: read) rest
      | none => .error ⟨.badEscape, rest.length + 2⟩
  | c :: rest =>
    if c.toNat < 32 then .error ⟨.control, rest.length + 1⟩
    else stringFrom d start (c :: read) rest
  termination_by s.length

def digits (s : List Char) : List Char × List Char :=
  s.span Decimal.isDigit

/-- The whole part of a number: zero, or digits that do not start with zero. -/
def whole? : List Char → Option (List Char × List Char)
  | '0' :: rest => some (['0'], rest)
  | c :: rest => if Decimal.isDigit c then some (digits (c :: rest)) else none
  | [] => none

def fraction (s : List Char) : List Char × List Char :=
  match s with
  | '.' :: rest => if (digits rest).1.isEmpty then ([], s) else digits rest
  | _ => ([], s)

def power (s : List Char) : Option Int × List Char :=
  match s with
  | c :: rest =>
    if c == 'e' || c == 'E' then
      let (negative, after) := Decimal.splitSign rest
      let (ds, left) := digits after
      if ds.isEmpty then (none, s)
      else
        let n : Int := Decimal.natOfDigits ds
        (some (if negative then -n else n), left)
    else (none, s)
  | [] => (none, [])

def fitsWord (n : Int) : Bool :=
  -0x8000000000000000 ≤ n && n < 0x10000000000000000

def integerValue (d : Dialect) (negative : Bool) (whole : List Char) : Except Cause Json :=
  if d.bigIntegers && Text.digitLimit < whole.length then .error (.tooLong whole.length)
  else
    let n := Text.signed negative (Decimal.natOfDigits whole)
    if d.bigIntegers || fitsWord n then .ok (.int n)
    else match Decimal.ofInt? n with
      | some x => .ok (.float x)
      | none => .error .other

def numberValue (d : Dialect) (negative : Bool) (whole frac : List Char) (power : Option Int) :
    Except Cause Json :=
  match frac, power with
  | [], none => integerValue d negative whole
  | _, _ =>
    let x := Decimal.ofDecimal? negative (Decimal.natOfDigits (whole ++ frac))
      (power.getD 0 - frac.length)
    match x with
    | some x => .ok (.float x)
    | none => if d.overflow then .ok (.float (Decimal.infinity negative)) else .error .other

def unsigned? (d : Dialect) (negative : Bool) (s : List Char) :
    Option (Except Cause Json × List Char) :=
  (whole? s).map fun (whole, rest) =>
    let (frac, rest) := fraction rest
    let (exponent, rest) := power rest
    (numberValue d negative whole frac exponent, rest)

/-- What follows a word, if the text starts with it. -/
def afterWord? : List Char → List Char → Option (List Char)
  | [], s => some s
  | c :: word, d :: s => if c == d then afterWord? word s else none
  | _ :: _, [] => none

/-- The words with a value. -/
def wordValues (d : Dialect) : List (List Char × Json) :=
  [("null".toList, .null), ("true".toList, .bool true), ("false".toList, .bool false)] ++
    if d.words then
      [("NaN".toList, .float Decimal.notANumber),
        ("Infinity".toList, .float (Decimal.infinity false)),
        ("-Infinity".toList, .float (Decimal.infinity true))]
    else []

def scalar? (d : Dialect) (s : List Char) : Option (Except Cause Json × List Char) :=
  match (wordValues d).findSome? fun (w, v) => (afterWord? w s).map (v, ·) with
  | some (v, rest) => some (.ok v, rest)
  | none =>
    match s with
    | '-' :: rest => unsigned? d true rest
    | s => unsigned? d false s

/-- A lexeme. -/
inductive Lexeme where
  | openArray
  | closeArray
  | openObject
  | closeObject
  | colon
  | comma
  | text (s : String)
  | scalar (v : Json)
  | bad (fault : Fault)

/-- The lexeme at the front of a text that does not start with a space, and what follows it; after
a fault nothing follows. -/
def lexeme (d : Dialect) : List Char → Lexeme × List Char
  | '[' :: rest => (.openArray, rest)
  | ']' :: rest => (.closeArray, rest)
  | '\x7b' :: rest => (.openObject, rest)
  | '\x7d' :: rest => (.closeObject, rest)
  | ':' :: rest => (.colon, rest)
  | ',' :: rest => (.comma, rest)
  | '"' :: rest =>
    match stringFrom d ('"' :: rest) [] rest with
    | .ok (t, rest) => (.text t, rest)
    | .error fault => (.bad fault, [])
  | s =>
    match scalar? d s with
    | some (.ok v, rest) => (.scalar v, rest)
    | some (.error cause, _) => (.bad ⟨cause, s.length⟩, [])
    | none => (.bad ⟨.noValue, s.length⟩, [])

/-- The lexemes of a text, each with the text from its start on. Every lexeme takes at least one
character, so as much fuel as characters is enough. -/
def lexemesFrom (d : Dialect) : Nat → List Char → List (Lexeme × List Char)
  | 0, _ => []
  | fuel + 1, s =>
    match s.dropWhile isSpace with
    | [] => []
    | c :: r =>
      let (t, rest) := lexeme d (c :: r)
      (t, c :: r) :: lexemesFrom d fuel rest

def lexemes (d : Dialect) (s : List Char) : List (Lexeme × List Char) :=
  lexemesFrom d s.length s

end ProxyCensus.Json
