import Ancestry.Proofs.Text.Cutting
import Ancestry.Proofs.Text.Numbers
import Ancestry.Proofs.Text.Utf8
import Ancestry.Object.Frame

/-!
# Framed objects read back

The name of a kind holds no space and the digits of a size no zero byte, so that the header of
a stored form ends where it was ended, and the object is read back from its stored form.
-/

namespace Ancestry

/-- Digits are single bytes. -/
theorem Text.digits_plain {c : Char} {value : Nat} (member : c ∈ (Text.digits 10 value).toList) :
    48 ≤ c.toNat ∧ c.toNat < 128 := by
  rw [Text.digits, String.toList_ofList] at member
  have digit := Nat.isDigit_of_mem_toDigits (by decide) (by decide) member
  simp only [Char.isDigit, Bool.and_eq_true, decide_eq_true_eq] at digit
  exact ⟨UInt32.le_iff_toNat_le.mp digit.1,
    Nat.lt_of_le_of_lt (UInt32.le_iff_toNat_le.mp digit.2) (by decide)⟩

/-- The name of a kind is read up to the space behind it. -/
theorem Header.readKind_written (kind : Kind) (rest : Bytes) :
    Header.readKind (Utf8.encode kind.name ++ 0x20 :: rest) = .ok (kind, rest) := by
  have unspaced : (0x20 : UInt8) ∉ Utf8.encode kind.name := by cases kind <;> decide
  rw [Header.readKind, Pieces.cutFirst_append unspaced]
  simp only [Utf8.decode_encode, Kind.ofName?_name]

/-- The digits of a size are read up to the zero byte behind them. -/
theorem Header.readSize_written {size : Nat} (inside : size ≤ Text.wordMax) (rest : Bytes) :
    Header.readSize (Utf8.encode (Text.digits 10 size) ++ 0 :: rest) = .ok (size, rest) := by
  have filled : (0 : UInt8) ∉ Utf8.encode (Text.digits 10 size) := by
    rw [Utf8.encode_plain fun c member => (Text.digits_plain member).2]
    intro zero
    obtain ⟨c, member, same⟩ := List.mem_map.mp zero
    obtain ⟨least, most⟩ := Text.digits_plain member
    have number : (UInt8.ofNat c.toNat).toNat = c.toNat :=
      UInt8.toNat_ofNat_of_lt' (Nat.lt_trans most (by decide))
    rw [same] at number
    exact absurd number (by simp; omega)
  rw [Header.readSize, Pieces.cutFirst_append filled]
  simp only [Utf8.decode_encode, Text.readWord_digits inside]

namespace Object

/-- An object is read back from its stored form. -/
theorem ofFrame_frame (object : Object) (inside : object.payload.length ≤ Text.wordMax) :
    ofFrame object.frame = .ok object := by
  have form : object.frame = Utf8.encode object.kind.name ++
      0x20 :: (Utf8.encode (Text.digits 10 object.payload.length) ++ 0 :: object.payload) := by
    have space : Utf8.encode " " = [0x20] := by decide
    rw [frame, headerBytes, Utf8.encode_append, Utf8.encode_append, space]
    simp
  have header : Header.read object.frame =
      .ok ⟨object.kind, object.payload.length, object.payload⟩ := by
    rw [form, Header.read, Header.readKind_written]
    simp only [bind, Except.bind, Header.readSize_written inside]
    rfl
  rw [ofFrame, header]
  exact if_pos rfl

end Object

end Ancestry
