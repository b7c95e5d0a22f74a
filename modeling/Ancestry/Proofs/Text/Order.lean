import Ancestry.Proofs.Text.Utf8

/-!
# The order of written texts

The bytes of two texts are in the order of the texts: where the texts first differ, so do their
bytes, and the byte of the earlier character is less. A byte below 128 is written for its own
character only.
-/

namespace Ancestry.Utf8

/-- Two numbers are in the order of the first parts that differ, of six bits each from the end. -/
theorem parts_lt {value other : Nat} (earlier : value < other) :
    value / 262144 < other / 262144 ∨ value / 262144 = other / 262144 ∧
      (value / 4096 % 64 < other / 4096 % 64 ∨ value / 4096 % 64 = other / 4096 % 64 ∧
        (value / 64 % 64 < other / 64 % 64 ∨ value / 64 % 64 = other / 64 % 64 ∧
          value % 64 < other % 64)) := by
  have step {value other : Nat} (earlier : value < other) :
      value / 64 < other / 64 ∨ value / 64 = other / 64 ∧ value % 64 < other % 64 := by omega
  have second (value : Nat) : value / 4096 = value / 64 / 64 := by omega
  have first (value : Nat) : value / 262144 = value / 64 / 64 / 64 := by omega
  simp only [first, second]
  rcases step earlier with early | ⟨same, late⟩
  · rcases step early with early | ⟨same, late⟩
    · rcases step early with early | ⟨same, late⟩
      · exact .inl early
      · exact .inr ⟨same, .inl late⟩
    · rw [same]
      exact .inr ⟨rfl, .inr ⟨rfl, .inl late⟩⟩
  · rw [same]
    exact .inr ⟨rfl, .inr ⟨rfl, .inr ⟨rfl, late⟩⟩⟩

/-- The bytes of an earlier character come first, whatever follows them. -/
theorem encodeChar_lt {first second : Char} (earlier : first < second) (rest more : Bytes) :
    String.utf8EncodeChar first ++ rest < String.utf8EncodeChar second ++ more := by
  have below : second.val.toNat < 1114112 := by
    rcases second.valid with small | ⟨_, large⟩
    · exact Nat.lt_trans small (by decide)
    · exact large
  have numbers : first.val.toNat < second.val.toNat := UInt32.lt_iff_toNat_lt.mp earlier
  simp only [String.utf8EncodeChar]
  generalize first.val.toNat = value at numbers
  generalize second.val.toNat = other at numbers below
  -- The first byte tells how many there are. Bytes of equal number are compared one by one.
  repeat' split
  all_goals
    simp only [List.cons_append, List.nil_append, List.cons_lt_cons_iff, UInt8.lt_iff_toNat_lt,
      ← UInt8.toNat_inj, UInt8.toNat_ofNat']
  case isFalse.isFalse.isFalse.isFalse.isFalse.isFalse =>
    rcases parts_lt numbers with lead | ⟨lead, second | ⟨second, third | ⟨third, last⟩⟩⟩
    · exact .inl (by omega)
    · rw [lead]
      exact .inr ⟨rfl, .inl (by omega)⟩
    · rw [lead, second]
      exact .inr ⟨rfl, .inr ⟨rfl, .inl (by omega)⟩⟩
    · rw [lead, second, third]
      exact .inr ⟨rfl, .inr ⟨rfl, .inr ⟨rfl, .inl (by omega)⟩⟩⟩
  all_goals omega

/-- Texts are in the order of their bytes. -/
theorem encode_lt {left right : String} (earlier : left < right) : encode left < encode right := by
  have chars : left.toList < right.toList := earlier
  rw [encode, encode]
  generalize left.toList = first at chars
  generalize right.toList = second at chars
  induction chars with
  | @nil c rest =>
    obtain ⟨byte, more, bytes, _⟩ := head_encodeChar c []
    rw [List.flatMap_nil, List.flatMap_cons, bytes]
    exact .nil
  | rel earlier => exact encodeChar_lt earlier _ _
  | cons _ inductionHypothesis => exact List.append_left_lt inductionHypothesis

/-- A byte below 128 is written for its character only. -/
theorem char_of_mem_encode {text : String} {byte : UInt8} (plain : byte.toNat < 128)
    (member : byte ∈ encode text) : Char.ofNat byte.toNat ∈ text.toList := by
  obtain ⟨before, after, cut⟩ := List.append_of_mem member
  have read := toList_decodeLossy (encode text)
  rw [decodeLossy_encode, cut, heads, chars_cut plain before after 0 (Nat.zero_le _)] at read
  rw [read]
  exact List.mem_append_right _ List.mem_cons_self

end Ancestry.Utf8
