import ProxyCensus.Text.Quoted

/-!
# Encoded answers

The two shapes in which a contract answers: one address, and a list of addresses. Everything is laid
out in words of thirty-two bytes; an address fills the low twenty bytes of its word and the others
are zero.
-/

namespace ProxyCensus.Evm.Abi

/-- The number that bytes spell, the highest first. -/
def number (bytes : List UInt8) : Nat :=
  bytes.foldl (fun n b => 256 * n + b.toNat) 0

def word (data : List UInt8) : Except String (List UInt8 × List UInt8) :=
  let first := data.take 32
  if first.length == 32 then .ok (first, data.drop 32)
  else .error s!"Tried to read 32 bytes, only got {first.length} bytes."

def addressOfWord (w : List UInt8) : Except String (List UInt8) :=
  let padding := w.take 12
  if padding.all (· == 0) then .ok (w.drop 12)
  else .error s!"Padding bytes were not empty: {Text.quotedBytes padding}"

/-- The address at the start of some bytes; what follows is not looked at. -/
def address (data : List UInt8) : Except String (List UInt8) := do
  let (w, _) ← word data
  addressOfWord w

def addressesFrom : Nat → List UInt8 → Except String (List (List UInt8))
  | 0, _ => .ok []
  | n + 1, data => do
    let (w, rest) ← word data
    let a ← addressOfWord w
    return a :: (← addressesFrom n rest)

/-- A list of addresses. The first word says where the list starts, which begins with its length. -/
def addresses (data : List UInt8) : Except String (List (List UInt8)) := do
  let (pointer, _) ← word data
  let start := number pointer
  if start < 32 || data.length ≤ start then
    throw "Invalid pointer in tuple at location 0 in payload"
  let (size, items) ← word (data.drop start)
  addressesFrom (number size) items

end ProxyCensus.Evm.Abi
