import Mathlib.Algebra.Ring.Nat
import ProxyCensus.Evm.Abi
import ProxyCensus.Proofs.Act

/-!
# Encoded lists of addresses

How a list of words is laid out, and what is read from it. Main statements: behind the layout of a list of
words anything may follow, and the words are read one by one; nothing is read from a layout that is cut
short, nor from one in which a word is no address.
-/

namespace ProxyCensus.Evm.Abi

/-- The last `width` bytes of a number, the highest first. -/
def bigEndian : Nat → Nat → List UInt8
  | 0, _ => []
  | width + 1, n => bigEndian width (n / 256) ++ [(n % 256).toUInt8]

/-- The word that holds an address: the address is behind zeros. -/
def wordOf (target : List UInt8) : List UInt8 :=
  List.replicate 12 0 ++ target

/-- The layout of a list of words: where the list starts, how many words it has, and the words. -/
def listOf (words : List (List UInt8)) : List UInt8 :=
  bigEndian 32 32 ++ bigEndian 32 words.length ++ words.flatten

@[simp] theorem length_bigEndian (width n : Nat) : (bigEndian width n).length = width := by
  induction width generalizing n with
  | zero => rfl
  | succ width ih => simp [bigEndian, ih]

/-- A number is what its bytes spell. -/
theorem number_bigEndian {width : Nat} :
    ∀ {n : Nat}, n < 256 ^ width → number (bigEndian width n) = n := by
  induction width with
  | zero =>
    intro n h
    obtain rfl : n = 0 := by simpa using h
    rfl
  | succ width ih =>
    intro n h
    have hrest : number (bigEndian width (n / 256)) = n / 256 :=
      ih (Nat.div_lt_of_lt_mul (by rwa [Nat.pow_succ, Nat.mul_comm] at h))
    have hlast : (n % 256).toUInt8.toNat = n % 256 := by simp
    unfold number at hrest ⊢
    rw [bigEndian, List.foldl_append, hrest, List.foldl_cons, List.foldl_nil, hlast]
    exact Nat.div_add_mod n 256

theorem word_append {w : List UInt8} (h : w.length = 32) (rest : List UInt8) :
    word (w ++ rest) = .ok (w, rest) := by
  unfold word
  simp [← h]

theorem eq_append_of_word {data w rest : List UInt8} (h : word data = .ok (w, rest)) :
    data = w ++ rest ∧ w.length = 32 := by
  unfold word at h
  dsimp only at h
  split at h
  · rename_i hlength
    obtain ⟨rfl, rfl⟩ := Prod.mk.inj (Except.ok.inj h)
    exact ⟨(List.take_append_drop 32 data).symm, by simpa using hlength⟩
  · cases h

theorem addressOfWord_wordOf {target : List UInt8} : addressOfWord (wordOf target) = .ok target := by
  unfold addressOfWord wordOf
  simp

/-- A word with a byte in front of the address is no address. -/
theorem addressOfWord_of_dirty {w : List UInt8} (h : ∃ b ∈ w.take 12, b ≠ 0) (target : List UInt8) :
    addressOfWord w ≠ .ok target := by
  obtain ⟨b, hb, hne⟩ := h
  have hdirty : ¬(w.take 12).all (· == 0) = true := by
    rw [List.all_eq_true]
    exact fun hall => hne (by simpa using hall b hb)
  unfold addressOfWord
  dsimp only
  rw [if_neg hdirty]
  intro h
  cases h

theorem address_append {w : List UInt8} (h : w.length = 32) (rest : List UInt8) :
    address (w ++ rest) = addressOfWord w := by
  unfold address
  rw [word_append h rest]
  rfl

theorem length_le_of_address {data target : List UInt8} (h : address data = .ok target) :
    32 ≤ data.length := by
  obtain ⟨⟨w, rest⟩, hw, -⟩ := bind_eq_ok_iff.1 h
  obtain ⟨rfl, hlength⟩ := eq_append_of_word hw
  rw [List.length_append]
  omega

variable {words : List (List UInt8)}

/-- Words in a row are read one by one, whatever follows them. -/
theorem addressesFrom_flatten (hwords : ∀ w ∈ words, w.length = 32) (rest : List UInt8) :
    addressesFrom words.length (words.flatten ++ rest) = words.mapM addressOfWord := by
  induction words with
  | nil => rfl
  | cons w others ih =>
    obtain ⟨hw, hothers⟩ := List.forall_mem_cons.1 hwords
    have hword := word_append hw (others.flatten ++ rest)
    rw [List.flatten_cons, List.append_assoc, List.length_cons, addressesFrom, hword, List.mapM_cons]
    change (addressOfWord w >>= _) = _
    refine bind_congr fun target => ?_
    rw [ih hothers]

theorem length_le_of_addressesFrom {n : Nat} :
    ∀ {data : List UInt8} {found : List (List UInt8)}, addressesFrom n data = .ok found →
      32 * n ≤ data.length := by
  induction n with
  | zero => exact fun _ => Nat.zero_le _
  | succ n ih =>
    intro data found h
    obtain ⟨⟨w, rest⟩, hw, h⟩ := bind_eq_ok_iff.1 h
    obtain ⟨first, -, h⟩ := bind_eq_ok_iff.1 h
    obtain ⟨others, hothers, -⟩ := bind_eq_ok_iff.1 h
    obtain ⟨rfl, hlength⟩ := eq_append_of_word hw
    have hrest := ih hothers
    rw [List.length_append, hlength]
    omega

/-- Where a list starts, its length and its addresses lie in the data. -/
theorem within_of_addresses {data : List UInt8} {found : List (List UInt8)}
    (h : addresses data = .ok found) :
    32 ≤ data.length ∧ ∃ size items, word (data.drop (number (data.take 32))) = .ok (size, items) ∧
      32 * number size ≤ items.length := by
  obtain ⟨⟨pointer, rest⟩, hpointer, h⟩ := bind_eq_ok_iff.1 h
  obtain ⟨rfl, hlength⟩ := eq_append_of_word hpointer
  dsimp only at h
  split at h
  · cases h
  · obtain ⟨⟨size, items⟩, hsize, h⟩ := bind_eq_ok_iff.1 h
    have hfirst : (pointer ++ rest).take 32 = pointer := by rw [← hlength, List.take_left]
    refine ⟨by rw [List.length_append]; omega, size, items, ?_, length_le_of_addressesFrom h⟩
    rw [hfirst]
    exact hsize

theorem length_listOf (hwords : ∀ w ∈ words, w.length = 32) :
    (listOf words).length = 64 + 32 * words.length := by
  have hflatten : words.flatten.length = 32 * words.length := by
    rw [List.length_flatten, List.map_congr_left hwords, List.map_const', List.sum_replicate_nat]
    exact Nat.mul_comm _ _
  rw [listOf, List.length_append, List.length_append, hflatten, length_bigEndian, length_bigEndian]

/-- A list is read from where its first word points, if that lies in the data and behind the word. -/
theorem addresses_eq {data pointer size rest items : List UInt8}
    (hpointer : word data = .ok (pointer, rest))
    (hbehind : 32 ≤ number pointer) (hinside : number pointer < data.length)
    (hsize : word (data.drop (number pointer)) = .ok (size, items)) :
    addresses data = addressesFrom (number size) items := by
  have hvalid : ¬(decide (number pointer < 32) || decide (data.length ≤ number pointer)) = true := by
    simp only [Bool.or_eq_true, decide_eq_true_eq]
    omega
  unfold addresses
  rw [hpointer]
  dsimp only [bind, Except.bind]
  rw [if_neg hvalid, hsize]

/-- If the first word points behind itself, the list is read from there. -/
theorem addresses_append {pointer size : List UInt8} (hpointer : pointer.length = 32)
    (hstart : number pointer = 32) (hsize : size.length = 32) (items : List UInt8) :
    addresses (pointer ++ (size ++ items)) = addressesFrom (number size) items := by
  refine addresses_eq (word_append hpointer (size ++ items)) (Nat.le_of_eq hstart.symm) ?_ ?_
  · rw [hstart, List.length_append, List.length_append, hpointer, hsize]
    omega
  · rw [hstart, List.drop_left' hpointer]
    exact word_append hsize items

theorem number_start : number (bigEndian 32 32) = 32 :=
  number_bigEndian (by decide)

/-- The words of a list are read one by one, whatever follows them. -/
theorem addresses_listOf (hwords : ∀ w ∈ words, w.length = 32) (hfew : words.length < 256 ^ 32)
    (rest : List UInt8) : addresses (listOf words ++ rest) = words.mapM addressOfWord := by
  have hsize : number (bigEndian 32 words.length) = words.length := number_bigEndian hfew
  rw [listOf, List.append_assoc, List.append_assoc,
    addresses_append (length_bigEndian 32 32) number_start (length_bigEndian 32 words.length), hsize,
    addressesFrom_flatten hwords]

theorem length_of_mem_map_wordOf {targets : List (List UInt8)}
    (h : ∀ target ∈ targets, target.length = 20) :
    ∀ w ∈ targets.map wordOf, w.length = 32 := by
  intro w hw
  obtain ⟨target, htarget, rfl⟩ := List.mem_map.1 hw
  rw [wordOf, List.length_append, List.length_replicate, h target htarget]

/-- Addresses that are laid out are read as they are, whatever follows them. -/
theorem addresses_listOf_wordOf {targets : List (List UInt8)} (htargets : ∀ a ∈ targets, a.length = 20)
    (hfew : targets.length < 256 ^ 32) (rest : List UInt8) :
    addresses (listOf (targets.map wordOf) ++ rest) = .ok targets := by
  have hread : ∀ targets : List (List UInt8), (targets.map wordOf).mapM addressOfWord = .ok targets := by
    intro targets
    induction targets with
    | nil => rfl
    | cons target others ih =>
      rw [List.map_cons, List.mapM_cons, addressOfWord_wordOf, ih]
      rfl
  rw [addresses_listOf (length_of_mem_map_wordOf htargets) (by rwa [List.length_map]), hread]

/-- Nothing is read from a list in which a word is no address. -/
theorem addresses_listOf_of_dirty (hwords : ∀ w ∈ words, w.length = 32) (hfew : words.length < 256 ^ 32)
    (hdirty : ∃ w ∈ words, ∃ b ∈ w.take 12, b ≠ 0) (rest : List UInt8) (found : List (List UInt8)) :
    addresses (listOf words ++ rest) ≠ .ok found := by
  rw [addresses_listOf hwords hfew]
  clear hwords hfew
  induction words generalizing found with
  | nil =>
    obtain ⟨w, hw, -⟩ := hdirty
    cases hw
  | cons w others ih =>
    intro h
    rw [List.mapM_cons] at h
    obtain ⟨target, hfirst, h⟩ := bind_eq_ok_iff.1 h
    obtain ⟨found', hothers, -⟩ := bind_eq_ok_iff.1 h
    obtain ⟨w', hw', hb⟩ := hdirty
    rcases List.mem_cons.1 hw' with rfl | hw'
    · exact addressOfWord_of_dirty hb target hfirst
    · exact ih ⟨w', hw', hb⟩ found' hothers

/-- Nothing is read from a list that is cut short, wherever it is cut. -/
theorem addresses_take_listOf (hwords : ∀ w ∈ words, w.length = 32) (hfew : words.length < 256 ^ 32)
    {k : Nat} (hk : k < (listOf words).length) (found : List (List UInt8)) :
    addresses ((listOf words).take k) ≠ .ok found := by
  intro h
  obtain ⟨hlength, size, items, hsize, hitems⟩ := within_of_addresses h
  have htotal := length_listOf hwords
  rw [List.length_take] at hlength
  -- The first word is whole, so the list starts behind it; then its length is whole as well.
  have hpointer : ((listOf words).take k).take 32 = bigEndian 32 32 := by
    rw [List.take_take, Nat.min_eq_left (by omega), listOf, List.append_assoc,
      List.take_left' (length_bigEndian 32 32)]
  rw [hpointer, number_start] at hsize
  obtain ⟨hsplit, hword⟩ := eq_append_of_word hsize
  have hcut : size.length + items.length = min k (listOf words).length - 32 := by
    rw [← List.length_append, ← hsplit, List.length_drop, List.length_take]
  have hcount : size = bigEndian 32 words.length := by
    have hbehind : ((listOf words).take k).drop 32 =
        (bigEndian 32 words.length ++ words.flatten).take (k - 32) := by
      rw [List.drop_take, listOf, List.append_assoc, List.drop_left' (length_bigEndian 32 32)]
    have hfirst : size = (size ++ items).take 32 := by rw [List.take_left' hword]
    rw [hfirst, ← hsplit, hbehind, List.take_take, Nat.min_eq_left (by omega),
      List.take_left' (length_bigEndian 32 words.length)]
  rw [hcount, number_bigEndian hfew] at hitems
  omega

end ProxyCensus.Evm.Abi
