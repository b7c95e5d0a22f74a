import Ancestry.ObjectId
import Ancestry.Proofs.Text.Utf8

/-!
# Identifiers written in digits

The digits of bytes are read as the bytes, and the forty digits of an identifier as the
identifier. Written digits are in lower case and take one byte each.
-/

namespace Ancestry

namespace ObjectId

variable {value : Nat} {bytes : Bytes} {c : Char}

/-- A digit is read as its value. -/
theorem hexValue?_hexDigit (below : value < 16) : hexValue? (hexDigit value) = some value := by
  have each : ∀ value < 16, hexValue? (hexDigit value) = some value := by decide
  exact each value below

/-- The digits of bytes are read as the bytes. -/
theorem bytesOfHex?_hexOfBytes (bytes : Bytes) : bytesOfHex? (hexOfBytes bytes) = some bytes := by
  induction bytes with
  | nil => rfl
  | cons byte bytes inductionHypothesis =>
    have bound := byte.toNat_lt
    have whole : byte.toNat / 16 * 16 + byte.toNat % 16 = byte.toNat := by omega
    change bytesOfHex? (hexDigit (byte.toNat / 16) :: hexDigit (byte.toNat % 16) ::
      hexOfBytes bytes) = _
    rw [bytesOfHex?, hexValue?_hexDigit (by omega), hexValue?_hexDigit (by omega),
      inductionHypothesis]
    simp only [Option.bind_eq_bind, Option.bind_some, whole, UInt8.ofNat_toNat]
    rfl

/-- Different bytes have different digits. -/
theorem hexOfBytes_injective : Function.Injective hexOfBytes := by
  intro left right same
  have read := bytesOfHex?_hexOfBytes left
  rw [same, bytesOfHex?_hexOfBytes] at read
  exact (Option.some.inj read).symm

/-- Every byte takes two digits. -/
theorem length_hexOfBytes (bytes : Bytes) : (hexOfBytes bytes).length = 2 * bytes.length := by
  induction bytes with
  | nil => rfl
  | cons byte bytes inductionHypothesis =>
    change (hexOfBytes bytes).length + 2 = 2 * (bytes.length + 1)
    omega

/-- What is written is a digit. -/
theorem mem_hexOfBytes (member : c ∈ hexOfBytes bytes) : ∃ value < 16, c = hexDigit value := by
  obtain ⟨byte, _, inside⟩ := List.mem_flatMap.mp member
  have bound := byte.toNat_lt
  simp only [List.mem_cons, List.not_mem_nil, or_false] at inside
  rcases inside with rfl | rfl
  · exact ⟨_, by omega, rfl⟩
  · exact ⟨_, by omega, rfl⟩

variable {id : ObjectId}

/-- An identifier takes forty digits. -/
theorem length_hexChars (id : ObjectId) : id.hexChars.length = 40 := by
  simp [hexChars, length_hexOfBytes, toBytes]

/-- An identifier is read back from its bytes. -/
theorem ofBytes?_toBytes (id : ObjectId) : ofBytes? id.toBytes = some id := by
  rw [ofBytes?, dif_pos (by simp [toBytes])]
  rfl

/-- Different identifiers have different digits. -/
theorem hexChars_injective : Function.Injective hexChars := by
  intro left right same
  have bytes := ofBytes?_toBytes left
  rw [hexOfBytes_injective same, ofBytes?_toBytes] at bytes
  exact (Option.some.inj bytes).symm

/-- Written digits are single bytes, in lower case, and no delimiters. -/
theorem of_mem_hexChars (member : c ∈ id.hexChars) :
    c.toNat < 128 ∧ c.toLower = c ∧ c ≠ '\n' ∧ c ≠ '/' ∧ c ≠ '\x00' := by
  have each : ∀ value < 16, (hexDigit value).toNat < 128 ∧
      (hexDigit value).toLower = hexDigit value ∧ hexDigit value ≠ '\n' ∧ hexDigit value ≠ '/' ∧
        hexDigit value ≠ '\x00' := by decide
  obtain ⟨value, below, rfl⟩ := mem_hexOfBytes member
  exact each value below

/-- Written digits are digits. -/
theorem isHex_of_mem_hexChars (member : c ∈ id.hexChars) : isHex c = true := by
  obtain ⟨value, below, rfl⟩ := mem_hexOfBytes member
  rw [isHex, hexValue?_hexDigit below]
  rfl

/-- The characters of the text of an identifier are its digits. -/
theorem toList_toHex (id : ObjectId) : id.toHex.toList = id.hexChars := String.toList_ofList

/-- An identifier is written in forty bytes. -/
theorem size_toHex (id : ObjectId) : Utf8.size id.toHex = 40 := by
  rw [Utf8.size_plain, toList_toHex, length_hexChars]
  intro c member
  rw [toList_toHex] at member
  exact (of_mem_hexChars member).1

/-- The digits of an identifier are read as the identifier. -/
theorem parse_toHex (id : ObjectId) : parse id.toHex = .ok id := by
  rw [parse, if_neg (by simp [size_toHex]), toList_toHex, hexChars, bytesOfHex?_hexOfBytes,
    Option.bind_some, ofBytes?_toBytes]

end ObjectId

end Ancestry
