/-!
# Blank characters

Which characters may surround a text without belonging to it, and the text that is left when they
are taken away on both sides.
-/

namespace ProxyCensus.Text

/-- The blank characters: the spaces of Unicode, the controls that move the cursor and the four
controls that separate records. -/
def isBlank (c : Char) : Bool :=
  let n := c.toNat
  (9 ≤ n && n ≤ 13) || (28 ≤ n && n ≤ 32) || n == 0x85 || n == 0xa0 || n == 0x1680 ||
    (0x2000 ≤ n && n ≤ 0x200a) || n == 0x2028 || n == 0x2029 || n == 0x202f || n == 0x205f ||
    n == 0x3000

/-- The characters with the Unicode property White_Space: the blank characters less the four
controls that separate records. -/
def isWhiteSpace (c : Char) : Bool :=
  isBlank c && !(28 ≤ c.toNat && c.toNat ≤ 31)

/-- The white space of ASCII: the plain space and the controls that move the cursor. -/
def isPlainSpace (c : Char) : Bool :=
  c == ' ' || (9 ≤ c.toNat && c.toNat ≤ 13)

/-- Takes the characters of class `p` away at both ends. -/
def trimBy (p : Char → Bool) (s : List Char) : List Char :=
  ((s.dropWhile p).reverse.dropWhile p).reverse

def trim (s : String) : String :=
  String.ofList (trimBy isBlank s.toList)

theorem isBlank_of_isPlainSpace {c : Char} (h : isPlainSpace c = true) : isBlank c = true := by
  simp only [isPlainSpace, Bool.or_eq_true, beq_iff_eq, Bool.and_eq_true, decide_eq_true_eq] at h
  rcases h with rfl | h
  · decide
  · simp [isBlank, h]

/-- A text that neither starts nor ends with a character of the class is left alone. -/
theorem trimBy_eq_self {p : Char → Bool} {s : List Char}
    (h₁ : ∀ c ∈ s.head?, p c = false) (h₂ : ∀ c ∈ s.getLast?, p c = false) : trimBy p s = s := by
  have hd : ∀ t : List Char, (∀ c ∈ t.head?, p c = false) → t.dropWhile p = t := by
    intro t ht
    cases t with
    | nil => rfl
    | cons c r => simp [ht c (by simp)]
  have hr : ∀ c ∈ s.reverse.head?, p c = false := by
    intro c hc
    exact h₂ c (by simpa using hc)
  simp [trimBy, hd s h₁, hd s.reverse hr]

end ProxyCensus.Text
