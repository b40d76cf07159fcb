import ProxyCensus.Text.Blank

/-!
# Hexadecimal text

Two digits a byte, the high half first. Writing is in lower case; reading takes either case and
skips plain white space between bytes. Main statement: what is written reads back as the bytes it
came from, in either case of every digit.
-/

namespace ProxyCensus.Hex

def digit (n : Nat) : Char :=
  if n < 10 then Char.ofNat (48 + n) else Char.ofNat (87 + n)

def value? (c : Char) : Option Nat :=
  if '0' ≤ c ∧ c ≤ '9' then some (c.toNat - 48)
  else if 'a' ≤ c ∧ c ≤ 'f' then some (c.toNat - 87)
  else if 'A' ≤ c ∧ c ≤ 'F' then some (c.toNat - 55)
  else none

def isDigit (c : Char) : Bool :=
  (value? c).isSome

def byte (b : UInt8) : List Char :=
  [digit (b.toNat / 16), digit (b.toNat % 16)]

def encode (bytes : List UInt8) : List Char :=
  bytes.flatMap byte

/-- The last `width` digits of a number, with zeros in front. -/
def ofNat : Nat → Nat → List Char
  | 0, _ => []
  | width + 1, n => ofNat width (n / 16) ++ [digit (n % 16)]

/-- Reads bytes from position `pos` on; on failure, the position of the first character that is
neither a digit nor plain white space between two bytes, or the end if that is in mid-byte. -/
def decodeFrom (pos : Nat) : List Char → Except Nat (List UInt8)
  | [] => .ok []
  | c :: rest =>
    if Text.isPlainSpace c then decodeFrom (pos + 1) rest
    else match value? c with
      | none => .error pos
      | some high => match rest with
        | [] => .error (pos + 1)
        | d :: rest => match value? d with
          | none => .error (pos + 1)
          | some low => do
            let bytes ← decodeFrom (pos + 2) rest
            return (16 * high + low).toUInt8 :: bytes

/-- Reads a byte string. A character outside ASCII is found before anything else is read. -/
def decode (s : List Char) : Except Nat (List UInt8) :=
  match s.findIdx? (128 ≤ ·.toNat) with
  | some pos => .error pos
  | none => decodeFrom 0 s

def faultMessage (pos : Nat) : String :=
  s!"non-hexadecimal number found in fromhex() arg at position {pos}"

/-- Drops one marker, in either case, from the front of a text. -/
def dropMarker : List Char → List Char
  | '0' :: 'x' :: rest => rest
  | '0' :: 'X' :: rest => rest
  | s => s

/-- The digits of a text: blanks on both sides and then one marker are taken away. -/
def clean (s : String) : List Char :=
  dropMarker (Text.trimBy Text.isBlank s.toList)

theorem value?_digit {n : Nat} (h : n < 16) : value? (digit n) = some n := by
  have : ∀ n : Fin 16, value? (digit n) = some n.val := by decide
  exact this ⟨n, h⟩

/-- A digit stands in one of three rows of characters. -/
theorem value?_cases {c : Char} {n : Nat} (h : value? c = some n) :
    48 ≤ c.toNat ∧ c.toNat ≤ 57 ∧ n = c.toNat - 48 ∨
      97 ≤ c.toNat ∧ c.toNat ≤ 102 ∧ n = c.toNat - 87 ∨
      65 ≤ c.toNat ∧ c.toNat ≤ 70 ∧ n = c.toNat - 55 := by
  unfold value? at h
  simp only [Char.le_def, UInt32.le_iff_toNat_le] at h
  split at h
  · rename_i hrow
    exact .inl ⟨hrow.1, hrow.2, (Option.some.inj h).symm⟩
  · split at h
    · rename_i hrow
      exact .inr (.inl ⟨hrow.1, hrow.2, (Option.some.inj h).symm⟩)
    · split at h
      · rename_i hrow
        exact .inr (.inr ⟨hrow.1, hrow.2, (Option.some.inj h).symm⟩)
      · cases h

theorem value?_lt {c : Char} {n : Nat} (h : value? c = some n) : n < 16 := by
  have hcases := value?_cases h
  omega

theorem digit_not_space {n : Nat} (h : n < 16) : Text.isPlainSpace (digit n) = false := by
  have : ∀ n : Fin 16, Text.isPlainSpace (digit n) = false := by decide
  exact this ⟨n, h⟩

@[simp] theorem encode_nil : encode [] = [] := rfl

@[simp] theorem encode_cons (b : UInt8) (bytes : List UInt8) :
    encode (b :: bytes) = digit (b.toNat / 16) :: digit (b.toNat % 16) :: encode bytes := rfl

theorem length_encode (bytes : List UInt8) : (encode bytes).length = 2 * bytes.length := by
  induction bytes with
  | nil => rfl
  | cons b r ih => simp [ih]; omega

theorem decodeFrom_encode (pos : Nat) (bytes : List UInt8) :
    decodeFrom pos (encode bytes) = .ok bytes := by
  induction bytes generalizing pos with
  | nil => rfl
  | cons b r ih =>
    have hb : b.toNat < 256 := b.toNat_lt
    have hh : b.toNat / 16 < 16 := by omega
    have hl : b.toNat % 16 < 16 := by omega
    have hs : 16 * (b.toNat / 16) + b.toNat % 16 = b.toNat := by omega
    simp only [encode_cons, decodeFrom, digit_not_space hh, value?_digit hh, value?_digit hl, ih]
    simp [hs, bind, Except.bind, pure, Except.pure]

end ProxyCensus.Hex
