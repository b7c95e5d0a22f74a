import Ancestry.Proofs.Text.Cutting
import Ancestry.Proofs.Text.Utf8
import Ancestry.Text.Blank
import Mathlib.Data.List.DropRight

/-!
# Lines of a byte string

No character reaches over a line feed, so that bytes may be cut at their line feeds and read
piece by piece, or read first and cut then. Lines of a text are these pieces without carriage
returns before the line feeds; a word at the beginning of a line is found in its piece as well.

Trimming leaves a part of a text that trimming leaves alone.
-/

namespace Ancestry

namespace Utf8

variable {bytes : Bytes}

/-- What stands between the line feeds of a byte string, as it is read. -/
def pieces (bytes : Bytes) : List String := (Pieces.split 0x0A bytes).map decodeLossy

/-- A line feed is read where there is one. -/
theorem newline_mem (read : '\n' ∈ (decodeLossy bytes).toList) : 0x0A ∈ bytes := by
  rw [toList_decodeLossy] at read
  exact mem_of_char (by decide) bytes 0 read

/-- Bytes on the two sides of a line feed are read apart. -/
theorem decodeLossy_newline (before after : Bytes) :
    (decodeLossy (before ++ 0x0A :: after)).toList =
      (decodeLossy before).toList ++ '\n' :: (decodeLossy after).toList := by
  rw [toList_decodeLossy, toList_decodeLossy, toList_decodeLossy]
  exact chars_cut (by decide) before after 0 (Nat.zero_le _)

/-- Something is read from every byte string that is not empty. -/
theorem decodeLossy_eq_empty : decodeLossy bytes = "" ↔ bytes = [] := by
  rw [← String.toList_eq_nil_iff, toList_decodeLossy, List.map_eq_nil_iff]
  cases bytes <;> simp [heads, scan]

/-- There is a piece, even of no bytes. -/
theorem pieces_ne_nil (bytes : Bytes) : pieces bytes ≠ [] :=
  fun none => Pieces.split_ne_nil 0x0A bytes (List.map_eq_nil_iff.mp none)

/-- Bytes without a line end are one piece. -/
theorem pieces_whole (whole : 0x0A ∉ bytes) : pieces bytes = [decodeLossy bytes] := by
  rw [pieces, Pieces.split_whole whole]
  rfl

/-- A line end divides the pieces of what stands around it. -/
theorem pieces_cut (before after : Bytes) :
    pieces (before ++ 0x0A :: after) = pieces before ++ pieces after := by
  rw [pieces, Pieces.split_cut, List.map_append]
  rfl

/-- The pieces are also those of the text that is read from the bytes. -/
theorem toList_pieces (bytes : Bytes) :
    (pieces bytes).map String.toList = Pieces.split '\n' (decodeLossy bytes).toList := by
  induction bytes using Pieces.cut_induction (0x0A : UInt8) with
  | whole piece free =>
    rw [pieces_whole free, Pieces.split_whole fun read => free (newline_mem read)]
    rfl
  | cut piece rest free inductionHypothesis =>
    rw [pieces_cut, pieces_whole free, List.map_append, inductionHypothesis, decodeLossy_newline,
      Pieces.split_append fun read => free (newline_mem read)]
    rfl

/-- Text that is written as it was read has the same pieces. -/
theorem pieces_again (bytes : Bytes) : pieces (encode (decodeLossy bytes)) = pieces bytes := by
  refine List.map_injective_iff.mpr (fun _ _ => String.toList_injective) ?_
  rw [toList_pieces, toList_pieces, decodeLossy_encode]

/-- No piece holds a line feed. -/
theorem newline_not_mem {piece : String} (member : piece ∈ pieces bytes) :
    '\n' ∉ piece.toList := by
  have inside : piece.toList ∈ Pieces.split '\n' (decodeLossy bytes).toList := by
    rw [← toList_pieces]
    exact List.mem_map_of_mem member
  exact Pieces.not_mem_of_split inside

/-- Line feeds between the pieces give the text that is read. -/
theorem intercalate_pieces (bytes : Bytes) :
    "\n".intercalate (pieces bytes) = decodeLossy bytes := by
  refine String.toList_injective ?_
  rw [String.toList_intercalate, toList_pieces]
  exact Pieces.intercalate_split '\n' _

/-- Written lines are the pieces of what is written. -/
theorem pieces_encode {lines : List String} (some : lines ≠ [])
    (whole : ∀ line ∈ lines, '\n' ∉ line.toList) :
    pieces (encode ("\n".intercalate lines)) = lines := by
  refine List.map_injective_iff.mpr (fun _ _ => String.toList_injective) ?_
  rw [toList_pieces, decodeLossy_encode, String.toList_intercalate]
  refine Pieces.split_intercalate (fun piece member => ?_) fun none => some (by simpa using none)
  obtain ⟨line, inside, rfl⟩ := List.mem_map.mp member
  exact whole line inside

end Utf8

namespace Text

/-- Nothing is taken off a list that does not end in a carriage return. -/
theorem dropReturn_eq {chars : List Char} (kept : chars.getLast? ≠ some '\r') :
    dropReturn chars = chars := by
  fun_induction dropReturn chars with
  | case1 => rfl
  | case2 => exact absurd rfl kept
  | case3 c rest other inductionHypothesis =>
    cases rest with
    | nil => rfl
    | cons next rest =>
      rw [List.getLast?_cons_cons] at kept
      rw [inductionHypothesis kept]

/-- A text without one carriage return at its end. -/
def withoutReturn (text : String) : String := String.ofList (dropReturn text.toList)

/-- Dropping the return at the end adds no character. -/
theorem dropReturn_subset (chars : List Char) : dropReturn chars ⊆ chars := by
  fun_induction dropReturn chars with
  | case1 => exact fun _ member => member
  | case2 => exact List.nil_subset _
  | case3 c rest other inductionHypothesis => exact List.cons_subset_cons c inductionHypothesis

/-- A carriage return at the end is none of a word at the beginning. -/
theorem afterStart?_dropReturn {word : List Char} (plain : '\r' ∉ word) (piece : List Char) :
    Pieces.afterStart? word (dropReturn piece) =
      (Pieces.afterStart? word piece).map dropReturn := by
  induction word generalizing piece with
  | nil => rfl
  | cons first word inductionHypothesis =>
    simp only [List.mem_cons, not_or] at plain
    fun_cases dropReturn piece with
    | case1 => rfl
    | case2 => simp [Pieces.afterStart?, Ne.symm plain.1]
    | case3 c rest other =>
      rw [Pieces.afterStart?, Pieces.afterStart?]
      split
      · exact inductionHypothesis plain.2 rest
      · rfl

/-- Pieces that more pieces follow are lines without their carriage returns. -/
theorem linesOfPieces_append (before : List (List Char)) {after : List (List Char)}
    (more : after ≠ []) :
    linesOfPieces (before ++ after) = before.map dropReturn ++ linesOfPieces after := by
  induction before with
  | nil => rfl
  | cons piece before inductionHypothesis =>
    have following : before ++ after ≠ [] := fun none => more (List.append_eq_nil_iff.mp none).2
    rw [List.cons_append, linesOfPieces, inductionHypothesis]
    · rfl
    · exact fun _ none => following none
    · exact following

/-- The lines in front are searched first. -/
theorem findSome?_map_dropReturn {word : List Char} (plain : '\r' ∉ word)
    (pieces : List (List Char)) :
    (pieces.map dropReturn).findSome? (Pieces.afterStart? word) =
      (pieces.findSome? (Pieces.afterStart? word)).map dropReturn := by
  induction pieces with
  | nil => rfl
  | cons piece pieces inductionHypothesis =>
    rw [List.map_cons, List.findSome?_cons, List.findSome?_cons, afterStart?_dropReturn plain]
    cases Pieces.afterStart? word piece with
    | none => exact inductionHypothesis
    | some rest => rfl

/-- Blank characters at the end are dropped. -/
theorem trimEnd_eq (chars : List Char) : trimEnd chars = chars.rdropWhile isBlank := by
  induction chars with
  | nil => rfl
  | cons c rest inductionHypothesis =>
    rw [trimEnd, inductionHypothesis, List.rdropWhile, List.rdropWhile, List.reverse_cons,
      List.dropWhile_append]
    cases kept : rest.reverse.dropWhile isBlank with
    | nil => cases blank : isBlank c <;> simp [blank]
    | cons last more => cases reversed : (last :: more).reverse <;> simp_all

/-- Trimming adds no character. -/
theorem trimChars_subset (chars : List Char) : trimChars chars ⊆ chars := by
  rw [trimChars, trimEnd_eq]
  exact List.Subset.trans (List.rdropWhile_prefix _ _).subset (List.dropWhile_suffix _).subset

/-- What is left begins with no blank character. -/
theorem dropWhile_trimChars (chars : List Char) :
    (trimChars chars).dropWhile isBlank = trimChars chars := by
  rw [trimChars, trimEnd_eq]
  obtain ⟨gone, whole⟩ := List.rdropWhile_prefix isBlank (chars.dropWhile isBlank)
  cases kept : (chars.dropWhile isBlank).rdropWhile isBlank with
  | nil => rfl
  | cons c rest =>
    have first := List.head?_dropWhile_not isBlank chars
    rw [← whole, kept, List.cons_append, List.head?_cons] at first
    exact List.dropWhile_cons_of_neg (by simpa using first)

/-- Trimmed text is left alone. -/
theorem trimChars_again (chars : List Char) : trimChars (trimChars chars) = trimChars chars := by
  rw [trimChars, dropWhile_trimChars, trimEnd_eq, trimChars, trimEnd_eq]
  exact List.rdropWhile_idempotent _ _

/-- What is left ends in no blank character. -/
theorem getLast?_trimChars (chars : List Char) :
    ∀ last ∈ (trimChars chars).getLast?, isBlank last = false := by
  rw [trimChars, trimEnd_eq]
  intro last member
  obtain ⟨filled, rfl⟩ := List.mem_getLast?_eq_getLast member
  simpa using List.rdropWhile_last_not isBlank _ filled

/-- Text without blank characters is left alone. -/
theorem trimChars_plain {chars : List Char} (plain : ∀ c ∈ chars, isBlank c = false) :
    trimChars chars = chars := by
  have begins : chars.dropWhile isBlank = chars := by
    cases chars with
    | nil => rfl
    | cons c rest => exact List.dropWhile_cons_of_neg (by simp [plain c List.mem_cons_self])
  rw [trimChars, begins, trimEnd_eq, List.rdropWhile_eq_self_iff]
  intro filled
  simp [plain _ (List.getLast_mem filled)]

/-- Behind trimmed text only the end of what follows is trimmed. -/
theorem trimChars_front {front : List Char} (trimmed : trimChars front = front)
    (filled : front ≠ []) (rest : List Char) :
    trimChars (front ++ rest) = front ++ trimEnd rest := by
  have begins : front.dropWhile isBlank = front := by
    rw [← trimmed]
    exact dropWhile_trimChars front
  have ends : front.rdropWhile isBlank = front := by
    rwa [trimChars, begins, trimEnd_eq] at trimmed
  have kept : (front ++ rest).dropWhile isBlank = front ++ rest := by
    rw [List.dropWhile_append, begins]
    simp [filled]
  rw [trimChars, kept, trimEnd_eq, trimEnd_eq, List.rdropWhile, List.rdropWhile,
    List.reverse_append, List.dropWhile_append]
  split
  · rename_i nothing
    rw [List.isEmpty_iff.mp nothing, List.reverse_nil, List.append_nil]
    exact ends
  · rw [List.reverse_append, List.reverse_reverse]

/-- A blank character behind trimmed text is taken off. -/
theorem trimChars_append {chars : List Char} (trimmed : trimChars chars = chars) {last : Char}
    (blank : isBlank last = true) : trimChars (chars ++ [last]) = chars := by
  have gone : trimEnd [last] = [] := by simp [trimEnd, blank]
  by_cases filled : chars = []
  · subst filled
    simp [trimChars, trimEnd, blank]
  · rw [trimChars_front trimmed filled, gone, List.append_nil]

end Text

end Ancestry
