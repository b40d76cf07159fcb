import ProxyCensus.Text.CaseTable

/-!
# Lower case

The lower-case form of a text in all scripts. One letter has two characters as its lower-case form,
and a capital sigma becomes a final sigma at the end of a word; every other letter is mapped by
itself.
-/

namespace ProxyCensus.Text

/-- Whether a code point lies in one of the closed ranges. -/
def inRanges (ranges : List (Nat × Nat)) (n : Nat) : Bool :=
  ranges.any fun r => r.1 ≤ n && n ≤ r.2

/-- Whether the run contains the code point. -/
def CaseRun.has (r : CaseRun) (n : Nat) : Bool :=
  r.first ≤ n && n ≤ r.last && (n - r.first) % r.step == 0

def lowerChar (c : Char) : List Char :=
  if c.toNat < 128 then [c.toLower]
  else if c == 'İ' then ['i', '\u0307']
  else match lowerRuns.find? (·.has c.toNat) with
    | some r => [Char.ofNat (c.toNat + r.shift).toNat]
    | none => [c]

/-- Whether a word ends where this context begins: of the characters that follow, leaving out the
skipped ones, the first is no cased letter. -/
def startsNoWord (s : List Char) : Bool :=
  match s.dropWhile fun c => inRanges caseIgnorableRanges c.toNat with
  | [] => true
  | c :: _ => !inRanges casedRanges c.toNat

/-- A capital sigma is final when a cased letter stands before it and none after it. The first
argument is the text before it, read backwards. -/
def isFinalSigma (before after : List Char) : Bool :=
  !startsNoWord before && startsNoWord after

/-- The lower-case form of a text, given what stands before it in reverse. -/
def lowerFrom (before : List Char) : List Char → List Char
  | [] => []
  | c :: r =>
    (if c == 'Σ' && isFinalSigma before r then ['ς'] else lowerChar c) ++ lowerFrom (c :: before) r

/-- The lower-case form of a text. -/
def lower (s : String) : String :=
  String.ofList (lowerFrom [] s.toList)

theorem lowerChar_of_ascii {c : Char} (h : c.toNat < 128) : lowerChar c = [c.toLower] := by
  simp [lowerChar, h]

theorem lowerFrom_of_ascii (before : List Char) {s : List Char} (h : ∀ c ∈ s, c.toNat < 128) :
    lowerFrom before s = s.map Char.toLower := by
  induction s generalizing before with
  | nil => rfl
  | cons c r ih =>
    have hc : c.toNat < 128 := h c (by simp)
    have hne : (c == 'Σ') = false := by
      apply beq_false_of_ne
      rintro rfl
      revert hc
      decide
    simp [lowerFrom, hne, lowerChar_of_ascii hc, ih (c :: before) fun d hd => h d (by simp [hd])]

end ProxyCensus.Text
