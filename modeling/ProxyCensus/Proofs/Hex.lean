import ProxyCensus.Detection

/-!
# Hexadecimal text of code

Written bytes read back as the code they came from, both as a template and as the text of a
contract's code.
-/

namespace ProxyCensus

namespace Hex

theorem mem_encode {bytes : List UInt8} {c : Char} (h : c ∈ encode bytes) :
    ∃ k < 16, c = digit k := by
  induction bytes with
  | nil => simp at h
  | cons b rest ih =>
    have hb : b.toNat < 256 := b.toNat_lt
    simp only [encode_cons, List.mem_cons] at h
    rcases h with rfl | rfl | h
    · exact ⟨b.toNat / 16, by omega, rfl⟩
    · exact ⟨b.toNat % 16, by omega, rfl⟩
    · exact ih h

theorem digit_ascii {k : Nat} (h : k < 16) : (digit k).toNat < 128 := by
  have : ∀ k : Fin 16, (digit k).toNat < 128 := by decide
  exact this ⟨k, h⟩

theorem digit_not_blank {k : Nat} (h : k < 16) : Text.isBlank (digit k) = false := by
  have : ∀ k : Fin 16, Text.isBlank (digit k) = false := by decide
  exact this ⟨k, h⟩

theorem digit_ne_x {k : Nat} (h : k < 16) : digit k ≠ 'x' ∧ digit k ≠ 'X' := by
  have : ∀ k : Fin 16, digit k ≠ 'x' ∧ digit k ≠ 'X' := by decide
  exact this ⟨k, h⟩

theorem decode_encode (bytes : List UInt8) : decode (encode bytes) = .ok bytes := by
  have ascii : (encode bytes).findIdx? (128 ≤ ·.toNat) = none := by
    rw [List.findIdx?_eq_none_iff]
    intro c hc
    obtain ⟨k, hk, rfl⟩ := mem_encode hc
    simpa using digit_ascii hk
  rw [decode, ascii]
  exact decodeFrom_encode 0 bytes

theorem dropMarker_encode (bytes : List UInt8) : dropMarker (encode bytes) = encode bytes := by
  cases bytes with
  | nil => rfl
  | cons b rest =>
    have hb : b.toNat < 256 := b.toNat_lt
    have hx := digit_ne_x (k := b.toNat % 16) (by omega)
    rw [encode_cons]
    unfold dropMarker
    split
    · rename_i heq
      injection heq with _ heq
      injection heq with heq
      exact absurd heq hx.1
    · rename_i heq
      injection heq with _ heq
      injection heq with heq
      exact absurd heq hx.2
    · rfl

/-- Written bytes stand for themselves. -/
theorem clean_encode (bytes : List UInt8) :
    clean (String.ofList (encode bytes)) = encode bytes := by
  have blank : ∀ c ∈ encode bytes, Text.isBlank c = false := by
    intro c hc
    obtain ⟨k, hk, rfl⟩ := mem_encode hc
    exact digit_not_blank hk
  rw [clean, String.toList_ofList, Text.trimBy_eq_self, dropMarker_encode]
  · exact fun c hc => blank c (List.mem_of_mem_head? hc)
  · exact fun c hc => blank c (List.mem_of_mem_getLast? hc)

end Hex

namespace Detection

theorem templateBytes_of_toList {s : String} {bytes : List UInt8}
    (h : s.toList = Hex.encode bytes) : templateBytes s = .ok bytes := by
  rw [templateBytes, h, Hex.decode_encode]
  rfl

theorem codeBytes_encode (code : List UInt8) :
    codeBytes (String.ofList (Hex.encode code)) = .ok code := by
  rw [codeBytes, Hex.clean_encode, Hex.decode_encode]
  rfl

end Detection

end ProxyCensus
