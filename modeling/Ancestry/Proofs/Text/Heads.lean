import Ancestry.Proofs.Text.Boundaries
import Mathlib.Algebra.Ring.Nat

/-!
# Heads of any bytes

Bytes that are no text are cut into heads all the same. The bytes of a head after its first one
continue a character, so that a byte that does not begins a head, whatever is broken before it. A
head that is a whole character holds the bytes of this character and no others. So the bytes of
some characters occur among any bytes where the heads are these characters, and only there,
unless one of them is the character that stands for what is no character.
-/

namespace Ancestry.Utf8

variable {first : UInt8} {rest bytes : Bytes} {word : List Char}

section whole

variable {c : Char} {more value : Nat}

/-- The bytes of a character that is given by its number. -/
theorem encodeChar_ofNat (scalar : value < 55296 ∨ 57343 < value ∧ value < 1114112) :
    String.utf8EncodeChar (Char.ofNat value) =
      if value ≤ 127 then [UInt8.ofNat value]
      else if value ≤ 2047 then
        [UInt8.ofNat (value / 64 % 32 + 192), UInt8.ofNat (value % 64 + 128)]
      else if value ≤ 65535 then
        [UInt8.ofNat (value / 4096 % 16 + 224), UInt8.ofNat (value / 64 % 64 + 128),
          UInt8.ofNat (value % 64 + 128)]
      else
        [UInt8.ofNat (value / 262144 % 8 + 240), UInt8.ofNat (value / 4096 % 64 + 128),
          UInt8.ofNat (value / 64 % 64 + 128), UInt8.ofNat (value % 64 + 128)] := by
  have number : (Char.ofNat value).val.toNat = value := by
    rw [Char.ofNat, dif_pos scalar]
    rfl
  simp only [String.utf8EncodeChar, number]

/-- A byte is told by its number. -/
theorem ofNat_eq (byte : UInt8) (same : value = byte.toNat) : UInt8.ofNat value = byte := by
  rw [same, UInt8.ofNat_toNat]

/-- Two bytes that are read as a character are how it is written. -/
theorem encodeChar_of_head2 (least : 194 ≤ first.toNat) (most : first.toNat < 224)
    (whole : head2 first rest = .whole c more) :
    String.utf8EncodeChar c = first :: rest.take more := by
  rcases rest with _ | ⟨second, rest⟩
  · cases whole
  rw [head2] at whole
  split at whole
  · rename_i next
    obtain ⟨low, high⟩ := continues_iff.mp next
    have bits := payload_of_tail low high
    cases whole
    rw [encodeChar_ofNat (by omega), if_neg (by omega), if_pos (by omega),
      ofNat_eq first (by omega), ofNat_eq second (by omega)]
    rfl
  · cases whole

/-- Three bytes that are read as a character are how it is written. Longer forms and surrogates are
not read. -/
theorem encodeChar_of_head3 {low high : UInt8} (least : 224 ≤ first.toNat)
    (most : first.toNat < 240) (tail : 128 ≤ low.toNat ∧ high.toNat ≤ 191)
    (long : first.toNat = 224 → 160 ≤ low.toNat) (plain : first.toNat = 237 → high.toNat ≤ 159)
    (whole : head3 low high first rest = .whole c more) :
    String.utf8EncodeChar c = first :: rest.take more := by
  rcases rest with _ | ⟨second, _ | ⟨third, rest⟩⟩
  · cases whole
  · grind [head3]
  rw [head3] at whole
  split at whole
  · rename_i next
    split at whole
    · rename_i last
      obtain ⟨least2, most2⟩ := within_iff.mp next
      obtain ⟨least3, most3⟩ := continues_iff.mp last
      have bits2 := payload_of_tail (by omega) (by omega : second.toNat ≤ 191)
      have bits3 := payload_of_tail least3 most3
      cases whole
      rw [encodeChar_ofNat (by omega), if_neg (by omega), if_neg (by omega), if_pos (by omega),
        ofNat_eq first (by omega), ofNat_eq second (by omega), ofNat_eq third (by omega)]
      rfl
    · cases whole
  · cases whole

/-- Four bytes that are read as a character are how it is written. Longer forms and numbers beyond
the last character are not read. -/
theorem encodeChar_of_head4 {low high : UInt8} (least : 240 ≤ first.toNat)
    (most : first.toNat < 245) (tail : 128 ≤ low.toNat ∧ high.toNat ≤ 191)
    (long : first.toNat = 240 → 144 ≤ low.toNat) (inside : first.toNat = 244 → high.toNat ≤ 143)
    (whole : head4 low high first rest = .whole c more) :
    String.utf8EncodeChar c = first :: rest.take more := by
  rcases rest with _ | ⟨second, _ | ⟨third, _ | ⟨fourth, rest⟩⟩⟩
  · cases whole
  · grind [head4]
  · grind [head4]
  rw [head4] at whole
  split at whole
  · rename_i next
    split at whole
    · rename_i later
      split at whole
      · rename_i last
        obtain ⟨least2, most2⟩ := within_iff.mp next
        obtain ⟨least3, most3⟩ := continues_iff.mp later
        obtain ⟨least4, most4⟩ := continues_iff.mp last
        have bits2 := payload_of_tail (by omega) (by omega : second.toNat ≤ 191)
        have bits3 := payload_of_tail least3 most3
        have bits4 := payload_of_tail least4 most4
        cases whole
        rw [encodeChar_ofNat (by omega), if_neg (by omega), if_neg (by omega), if_neg (by omega),
          ofNat_eq first (by omega), ofNat_eq second (by omega), ofNat_eq third (by omega),
          ofNat_eq fourth (by omega)]
        rfl
      · cases whole
    · cases whole
  · cases whole

/-- A head that is a whole character holds the bytes of this character. -/
theorem encodeChar_of_head (whole : head first rest = .whole c more) :
    String.utf8EncodeChar c = first :: rest.take more := by
  by_cases one : first < 0x80
  · have small : first.toNat < 128 := UInt8.lt_iff_toNat_lt.mp one
    rw [head_one small] at whole
    cases whole
    rw [encodeChar_ofNat (by omega), if_pos (by omega), UInt8.ofNat_toNat]
    rfl
  by_cases stray : first < 0xC2
  · simp [head, one, stray] at whole
  have least : 194 ≤ first.toNat := UInt8.le_iff_toNat_le.mp (UInt8.not_lt.mp stray)
  by_cases two : first < 0xE0
  · simp only [head, one, stray, two, if_true, if_false] at whole
    exact encodeChar_of_head2 least (UInt8.lt_iff_toNat_lt.mp two) whole
  have least : 224 ≤ first.toNat := UInt8.le_iff_toNat_le.mp (UInt8.not_lt.mp two)
  by_cases long : first = 0xE0
  · subst long
    exact encodeChar_of_head3 least (by decide) (by decide) (fun _ => by decide) (by decide) whole
  have longer : first.toNat ≠ 224 := fun same => long (UInt8.toNat_inj.mp same)
  by_cases surrogate : first = 0xED
  · subst surrogate
    exact encodeChar_of_head3 least (by decide) (by decide) (by decide) (fun _ => by decide) whole
  have plain : first.toNat ≠ 237 := fun same => surrogate (UInt8.toNat_inj.mp same)
  by_cases three : first < 0xF0
  · simp only [head, one, stray, two, long, surrogate, three, if_true, if_false] at whole
    exact encodeChar_of_head3 least (UInt8.lt_iff_toNat_lt.mp three) (by decide)
      (fun same => absurd same longer) (fun same => absurd same plain) whole
  have least : 240 ≤ first.toNat := UInt8.le_iff_toNat_le.mp (UInt8.not_lt.mp three)
  by_cases higher : first = 0xF0
  · subst higher
    exact encodeChar_of_head4 least (by decide) (by decide) (fun _ => by decide) (by decide) whole
  have highest : first.toNat ≠ 240 := fun same => higher (UInt8.toNat_inj.mp same)
  by_cases four : first < 0xF4
  · simp only [head, one, stray, two, long, surrogate, three, higher, four, if_true, if_false]
      at whole
    have below : first.toNat < 244 := UInt8.lt_iff_toNat_lt.mp four
    exact encodeChar_of_head4 least (by omega) (by decide) (fun same => absurd same highest)
      (fun same => absurd same below.ne) whole
  by_cases last : first = 0xF4
  · subst last
    exact encodeChar_of_head4 least (by decide) (by decide) (by decide) (fun _ => by decide) whole
  · simp [head, one, stray, two, long, surrogate, three, higher, four, last] at whole

end whole

/-- The bytes of a head after its first one continue a character. -/
theorem head_tail (first : UInt8) (rest : Bytes) :
    ∀ byte ∈ rest.take (head first rest).more, continues byte = true := by
  have inner {low high byte : UInt8} (tail : 128 ≤ low.toNat ∧ high.toNat ≤ 191)
      (inside : within low high byte = true) : continues byte = true := by
    obtain ⟨least, most⟩ := within_iff.mp inside
    exact continues_iff.mpr (by omega)
  rcases leads first with ⟨_, same⟩ | ⟨same⟩ | ⟨_, same⟩ | ⟨low, high, tail, _, _, same⟩ |
    ⟨low, high, tail, _, _, same⟩
  all_goals rw [same]
  · exact fun byte member => absurd member List.not_mem_nil
  · exact fun byte member => absurd member List.not_mem_nil
  · cases rest <;> grind [head2, Head.more]
  · rcases rest with _ | ⟨second, _ | ⟨third, rest⟩⟩ <;> grind [head3, Head.more]
  · rcases rest with _ | ⟨second, _ | ⟨third, _ | ⟨fourth, rest⟩⟩⟩ <;> grind [head4, Head.more]

/-- Bytes that are passed over are dropped. -/
theorem scan_eq_heads (skip : Nat) (bytes : Bytes) : scan skip bytes = heads (bytes.drop skip) := by
  induction bytes generalizing skip with
  | nil => cases skip <;> rfl
  | cons first rest inductionHypothesis =>
    cases skip with
    | zero => rfl
    | succ skip => exact inductionHypothesis skip

/-- The first head, and the heads of the bytes behind it. -/
theorem heads_cons (first : UInt8) (rest : Bytes) :
    heads (first :: rest) = head first rest :: heads (rest.drop (head first rest).more) := by
  rw [heads, scan, scan_eq_heads]

/-- What holds of no bytes, and of bytes if it holds of those behind their first head, holds of
all bytes. -/
theorem heads_induction {motive : Bytes → Prop} (none : motive [])
    (head : ∀ first rest, motive (rest.drop (head first rest).more) → motive (first :: rest))
    (bytes : Bytes) : motive bytes := by
  induction size : bytes.length using Nat.strong_induction_on generalizing bytes with
  | _ size inductionHypothesis =>
    cases bytes with
    | nil => exact none
    | cons first rest =>
      apply head
      apply inductionHypothesis _ _ _ rfl
      rw [List.length_drop, ← size, List.length_cons]
      omega

/-- The position among the bytes of the head with a number. -/
def place (bytes : Bytes) (number : Nat) : Nat :=
  (((heads bytes).take number).map fun head => head.more + 1).sum

/-- Every head moves those behind it by the number of its bytes. -/
theorem place_cons (first : UInt8) (rest : Bytes) (number : Nat) :
    place (first :: rest) (number + 1) =
      (head first rest).more + 1 + place (rest.drop (head first rest).more) number := by
  rw [place, heads_cons, List.take_succ_cons, List.map_cons, List.sum_cons]
  rfl

/-- Behind some heads are the heads of the bytes behind them. -/
theorem heads_drop (bytes : Bytes) (number : Nat) :
    (heads bytes).drop number = heads (bytes.drop (place bytes number)) := by
  induction bytes using heads_induction generalizing number with
  | none => simp [heads, scan]
  | head first rest inductionHypothesis =>
    cases number with
    | zero => rfl
    | succ number =>
      rw [heads_cons, List.drop_succ_cons, inductionHypothesis, place_cons, List.drop_drop,
        Nat.add_right_comm, List.drop_succ_cons]

/-- So many heads and then more lie one behind the other. -/
theorem place_add (bytes : Bytes) (number more : Nat) :
    place bytes (number + more) =
      place bytes number + place (bytes.drop (place bytes number)) more := by
  rw [place, List.take_add, List.map_append, List.sum_append, heads_drop]
  rfl

/-- Later heads are at later positions. -/
theorem place_lt {number later : Nat} (before : number < later)
    (inside : later ≤ (heads bytes).length) : place bytes number < place bytes later := by
  obtain ⟨more, rfl⟩ := Nat.exists_eq_add_of_lt before
  have within : number < (heads bytes).length := by omega
  rw [Nat.add_assoc, place_add]
  have filled : 0 < place (bytes.drop (place bytes number)) (more + 1) := by
    rw [place, ← heads_drop, List.drop_eq_getElem_cons within, List.take_succ_cons, List.map_cons,
      List.sum_cons]
    omega
  omega

/-- Heads that are read as characters other than the replacement hold the bytes of these. -/
theorem written_prefix_of_heads (given : replacement ∉ word)
    (begins : word <+: (heads bytes).map Head.char) :
    written word <+: bytes ∧ place bytes word.length = (written word).length := by
  induction word generalizing bytes with
  | nil => exact ⟨List.nil_prefix, rfl⟩
  | cons c word inductionHypothesis =>
    cases bytes with
    | nil => simp [heads, scan] at begins
    | cons first rest =>
      rw [heads_cons, List.map_cons, List.cons_prefix_cons] at begins
      obtain ⟨same, begins⟩ := begins
      simp only [List.mem_cons, not_or] at given
      obtain ⟨other, given⟩ := given
      cases whole : head first rest with
      | broken more => exact absurd (by rw [same, whole]; rfl) other
      | cut more => exact absurd (by rw [same, whole]; rfl) other
      | whole found more =>
        rw [whole] at same begins
        obtain rfl : c = found := same
        obtain ⟨⟨after, back⟩, length⟩ := inductionHypothesis given begins
        have inside : more ≤ rest.length := by
          have bound := head_more_le first rest
          rwa [whole] at bound
        have bytes : written (c :: word) = first :: rest.take more ++ written word := by
          rw [written, List.flatMap_cons, encodeChar_of_head whole]
          rfl
        simp only [Head.more] at back length
        constructor
        · refine ⟨after, ?_⟩
          rw [bytes, List.append_assoc, back, List.cons_append, List.take_append_drop]
        · simp only [bytes, List.length_cons, place_cons, whole, Head.more, length,
            List.length_append, List.length_take_of_le inside]

/-- The bytes of some characters are read as these, whatever follows them. -/
theorem heads_prefix_of_written (begins : written word <+: bytes) :
    word <+: (heads bytes).map Head.char := by
  obtain ⟨rest, rfl⟩ := begins
  rw [written, chars_encode]
  exact List.prefix_append _ _

/-- The bytes of some characters occur only at the beginning of a head, where the heads are read
as these characters. -/
theorem exists_place_of_prefix (some : word ≠ []) {position : Nat}
    (begins : written word <+: bytes.drop position) :
    ∃ number ≤ (heads bytes).length, position = place bytes number ∧
      word <+: ((heads bytes).map Head.char).drop number := by
  obtain ⟨c, others, rfl⟩ := List.exists_cons_of_ne_nil some
  obtain ⟨lead, more, bytesOf, leading, _⟩ := encodeChar_bytes c
  induction bytes using heads_induction generalizing position with
  | none =>
    rw [List.drop_nil, written, List.flatMap_cons, bytesOf] at begins
    cases List.prefix_nil.mp begins
  | head first rest inductionHypothesis =>
    rcases Nat.eq_zero_or_pos position with rfl | later
    · exact ⟨0, Nat.zero_le _, rfl, heads_prefix_of_written begins⟩
    obtain ⟨back, rfl⟩ := Nat.exists_eq_succ_of_ne_zero later.ne'
    rw [List.drop_succ_cons] at begins
    by_cases inside : back < (head first rest).more
    · -- the first byte would continue a character
      exfalso
      have within : back < rest.length := inside.trans_le (head_more_le first rest)
      rw [written, List.flatMap_cons, bytesOf, List.drop_eq_getElem_cons within,
        List.cons_append, List.cons_prefix_cons] at begins
      have tails : continues rest[back] = true := by
        apply head_tail first rest
        rw [List.mem_take_iff_getElem]
        exact ⟨back, by omega, rfl⟩
      rw [← begins.1, leading] at tails
      cases tails
    · obtain ⟨beyond, rfl⟩ := Nat.exists_eq_add_of_le (Nat.not_lt.mp inside)
      rw [← List.drop_drop] at begins
      obtain ⟨number, within, rfl, found⟩ := inductionHypothesis begins
      refine ⟨number + 1, ?_, ?_, ?_⟩
      · rw [heads_cons, List.length_cons]
        exact Nat.succ_le_succ within
      · rw [place_cons, Nat.add_right_comm]
      · rw [heads_cons, List.map_cons, List.drop_succ_cons]
        exact found

end Ancestry.Utf8
