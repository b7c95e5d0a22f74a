import Ancestry.Proofs.Text.Utf8
import Mathlib.Data.List.Infix

/-!
# Boundaries of characters

Text may be cut only between two characters. A position among its bytes is such a boundary if
the bytes before it are those of the first characters. The first byte of a character tells that
it is one, and the other bytes tell that they are not. So wherever the bytes of some characters
occur among the bytes of a text, the characters themselves occur there, at a boundary.
-/

namespace Ancestry.Utf8

/-- The bytes of some characters. -/
def written (chars : List Char) : Bytes := chars.flatMap String.utf8EncodeChar

/-- The position of the character with a number among the bytes. -/
def offset (chars : List Char) (number : Nat) : Nat := (written (chars.take number)).length

/-- A position at which a text may be cut. -/
def Boundary (text : String) (position : Nat) : Prop :=
  ∃ front back : String, text = front ++ back ∧ position = size front

variable {word chars : List Char}

/-- Texts are written one behind the other. -/
theorem written_append (front back : List Char) :
    written (front ++ back) = written front ++ written back :=
  List.flatMap_append

/-- A character begins with a byte that does not continue one, and goes on with bytes that do. -/
theorem encodeChar_bytes (c : Char) :
    ∃ first more, String.utf8EncodeChar c = first :: more ∧ continues first = false ∧
      ∀ byte ∈ more, continues byte = true := by
  obtain ⟨first, more, bytes, whole⟩ := head_encodeChar c []
  refine ⟨first, more, bytes, ?_, ?_⟩
  · rw [Bool.eq_false_iff]
    intro tail
    obtain ⟨least, most⟩ := continues_iff.mp tail
    simp only [head, UInt8.lt_iff_toNat_lt, UInt8.toNat_ofNat] at whole
    rw [if_neg (by omega), if_pos (by omega)] at whole
    cases whole
  · simp only [String.utf8EncodeChar] at bytes
    -- One case for each number of bytes.
    split at bytes
    · obtain ⟨rfl, rfl⟩ := List.cons.inj bytes
      exact fun byte member => absurd member List.not_mem_nil
    all_goals try split at bytes
    all_goals try split at bytes
    all_goals
      obtain ⟨rfl, rfl⟩ := List.cons.inj bytes
      simp only [List.forall_mem_cons, continues_tail, List.not_mem_nil, false_imp_iff,
        implies_true, and_self]

/-- No character begins within the bytes of another one. -/
theorem not_prefix_inside (c first : Char) (word : List Char) (rest : Bytes) {position : Nat}
    (later : 0 < position) (inside : position < (String.utf8EncodeChar c).length) :
    ¬ written (first :: word) <+: (String.utf8EncodeChar c ++ rest).drop position := by
  intro begins
  obtain ⟨lead, more, bytes, plain, _⟩ := encodeChar_bytes first
  obtain ⟨byte, tail, whole, _, continuing⟩ := encodeChar_bytes c
  obtain ⟨place, rfl⟩ := Nat.exists_eq_succ_of_ne_zero (Nat.ne_of_gt later)
  rw [whole, List.length_cons] at inside
  have within : place < tail.length := Nat.lt_of_succ_lt_succ inside
  rw [whole, List.cons_append, List.drop_succ_cons, List.drop_append_of_le_length within.le,
    List.drop_eq_getElem_cons within, written, List.flatMap_cons, bytes, List.cons_append,
    List.cons_append, List.cons_prefix_cons] at begins
  have tails : continues tail[place] = true := continuing tail[place] (List.getElem_mem within)
  rw [← begins.1, plain] at tails
  cases tails

/-- The bytes of some characters begin the bytes of others exactly if the characters do. -/
theorem written_prefix_iff : written word <+: written chars ↔ word <+: chars := by
  constructor
  · rintro ⟨rest, same⟩
    have read := chars_encode word rest
    have whole := chars_encode chars []
    rw [List.append_nil] at whole
    change (heads (written word ++ rest)).map Head.char = _ at read
    change (heads (written chars)).map Head.char = _ at whole
    rw [same, whole] at read
    exact ⟨_, by simpa [heads, scan] using read.symm⟩
  · rintro ⟨rest, rfl⟩
    exact ⟨written rest, (written_append word rest).symm⟩

/-- Every character moves those behind it by the number of its bytes. -/
theorem offset_cons (c : Char) (chars : List Char) (number : Nat) :
    offset (c :: chars) (number + 1) = (String.utf8EncodeChar c).length + offset chars number := by
  rw [offset, List.take_succ_cons, written, List.flatMap_cons, List.length_append]
  rfl

/-- A position behind another one lies by the bytes between them further on. -/
theorem offset_add (chars : List Char) (number more : Nat) :
    offset chars (number + more) = offset chars number + offset (chars.drop number) more := by
  rw [offset, List.take_add, written_append, List.length_append]
  rfl

/-- Later characters begin at later positions. -/
theorem offset_lt {number later : Nat} (before : number < later) (inside : later ≤ chars.length) :
    offset chars number < offset chars later := by
  obtain ⟨more, rfl⟩ := Nat.exists_eq_add_of_lt before
  have within : number < chars.length := by omega
  obtain ⟨first, rest, bytes, _⟩ := encodeChar_bytes chars[number]
  rw [Nat.add_assoc, offset_add, List.drop_eq_getElem_cons within, offset_cons, bytes,
    List.length_cons]
  omega

/-- Later characters do not begin earlier. -/
theorem offset_le {number later : Nat} (before : number ≤ later) (inside : later ≤ chars.length) :
    offset chars number ≤ offset chars later := by
  rcases Nat.eq_or_lt_of_le before with rfl | before
  · exact Nat.le_refl _
  · exact (offset_lt before inside).le

/-- A character that does not begin earlier is no earlier character. -/
theorem le_of_offset_le {number other : Nat} (inside : number ≤ chars.length)
    (least : offset chars number ≤ offset chars other) : number ≤ other := by
  by_contra before
  exact absurd least (Nat.not_le.mpr (offset_lt (Nat.not_le.mp before) inside))

/-- Behind some characters that occur is where their bytes end. -/
theorem offset_behind {number : Nat} (begins : word <+: chars.drop number) :
    offset chars (number + word.length) = offset chars number + (written word).length := by
  obtain ⟨rest, same⟩ := begins
  rw [offset_add, ← same, offset.eq_def (word ++ rest), List.take_left]

/-- Behind the offset of a position stands what is written behind that position. -/
theorem drop_offset (chars : List Char) (number : Nat) :
    (written chars).drop (offset chars number) = written (chars.drop number) := by
  conv_lhs => rw [← List.take_append_drop number chars, written_append]
  rw [List.take_append_drop, offset, List.drop_left]

/-- The bytes of some characters occur only where the characters do. -/
theorem exists_offset_of_prefix (some : word ≠ []) {position : Nat}
    (begins : written word <+: (written chars).drop position) :
    ∃ number ≤ chars.length, position = offset chars number ∧ word <+: chars.drop number := by
  obtain ⟨first, rest, rfl⟩ := List.exists_cons_of_ne_nil some
  induction chars generalizing position with
  | nil =>
    obtain ⟨lead, more, bytes, _⟩ := encodeChar_bytes first
    rw [written, List.flatMap_cons, bytes] at begins
    simp [written] at begins
  | cons c chars inductionHypothesis =>
    rcases Nat.eq_zero_or_pos position with rfl | later
    · exact ⟨0, Nat.zero_le _, rfl, written_prefix_iff.mp begins⟩
    rw [written.eq_def (c :: chars), List.flatMap_cons] at begins
    by_cases inside : position < (String.utf8EncodeChar c).length
    · exact absurd begins (not_prefix_inside c first rest (written chars) later inside)
    · obtain ⟨beyond, rfl⟩ := Nat.exists_eq_add_of_le (Nat.not_lt.mp inside)
      rw [← List.drop_drop, List.drop_left] at begins
      obtain ⟨number, within, rfl, found⟩ := inductionHypothesis begins
      exact ⟨number + 1, Nat.succ_le_succ within, (offset_cons c chars number).symm, found⟩

/-- A word that begins at a position is written from its offset on. -/
theorem prefix_drop_offset {number : Nat} (begins : word <+: chars.drop number) :
    written word <+: (written chars).drop (offset chars number) := by
  rw [drop_offset]
  exact written_prefix_iff.mpr begins

/-- Every character begins within the text. -/
theorem offset_le_size (text : String) (number : Nat) : offset text.toList number ≤ size text := by
  change _ ≤ (written text.toList).length
  conv_rhs => rw [← List.take_append_drop number text.toList, written_append, List.length_append]
  exact Nat.le_add_right _ _

/-- A text is cut before one of its characters. -/
theorem cut_offset (text : String) (number : Nat) :
    text = .ofList (text.toList.take number) ++ .ofList (text.toList.drop number) ∧
      offset text.toList number = size (.ofList (text.toList.take number)) := by
  constructor
  · rw [← String.ofList_append, List.take_append_drop, String.ofList_toList]
  · rw [size, encode, String.toList_ofList]
    rfl

/-- A text may be cut where one of its characters begins, and at its end. -/
theorem boundary_offset (text : String) (number : Nat) :
    Boundary text (offset text.toList number) :=
  ⟨_, _, cut_offset text number⟩

end Ancestry.Utf8
