import Ancestry.Object.Commit
import Ancestry.Proofs.Text.Lines

/-!
# Commits read line by line

A payload is read the same when its bytes are cut at line feeds first and the pieces read
after that. The header is made of the pieces in front of the first empty one, and the message
of those behind it; the people are taken from the first pieces that name them.
-/

namespace Ancestry

variable {bytes : Bytes} {lines : List String} {header next : PartialHeader} {line : String}

namespace Commit

/-- The lines in front of the first empty one. -/
def front (lines : List String) : List String := lines.takeWhile (· ≠ "")

/-- What stands behind the first empty line, if a line follows it. -/
def behind : List String → String
  | [] => ""
  | [_] => ""
  | line :: next :: rest =>
    if line = "" then "\n".intercalate (next :: rest) else behind (next :: rest)

/-- What follows a word in the lines that begin with it. -/
def textsAfter (word : String) (lines : List String) : List String :=
  lines.filterMap fun line => (Pieces.afterStart? word.toList line.toList).map String.ofList

end Commit

/-- The header that some lines make. -/
def CommitHeader.ofLines (lines : List String) : Except CommitFault CommitHeader :=
  match lines.foldlM PartialHeader.readLine {} with
  | .ok header => header.finish
  | .error fault => .error fault

/-- Pieces are taken in up to the first that reads as nothing. -/
theorem PartialHeader.readLines_front (header : PartialHeader) (parts : List Bytes) :
    header.readLines parts =
      (Commit.front (parts.map Utf8.decodeLossy)).foldlM PartialHeader.readLine header := by
  induction parts generalizing header with
  | nil => rfl
  | cons part parts inductionHypothesis =>
    rw [readLines, List.map_cons, Commit.front, List.takeWhile_cons]
    by_cases empty : part = []
    · rw [if_pos empty, if_neg (by simp [Utf8.decodeLossy_eq_empty, empty])]
      rfl
    · rw [if_neg empty, if_pos (by simp [Utf8.decodeLossy_eq_empty, empty]), List.foldlM_cons]
      cases header.readLine (Utf8.decodeLossy part) with
      | error fault => rfl
      | ok header => exact inductionHypothesis header

/-- A header is read from the lines in front of the first empty one. -/
theorem CommitHeader.parse_front (bytes : Bytes) :
    CommitHeader.parse bytes = CommitHeader.ofLines (Commit.front (Utf8.pieces bytes)) := by
  rw [CommitHeader.parse, PartialHeader.readLines_front]
  rfl

namespace Commit

/-- Behind the first empty line stands the rest. -/
theorem behind_empty (some : lines ≠ []) : behind ("" :: lines) = "\n".intercalate lines := by
  cases lines with
  | nil => exact absurd rfl some
  | cons next rest => exact if_pos rfl

/-- A line that is not empty is passed over. -/
theorem behind_filled (filled : line ≠ "") : behind (line :: lines) = behind lines := by
  cases lines with
  | nil => rfl
  | cons next rest => exact if_neg filled

/-- What follows the first empty line stands behind it. -/
theorem behind_append {more : List String} (filled : ∀ line ∈ lines, line ≠ "")
    (some : more ≠ []) : behind (lines ++ "" :: more) = "\n".intercalate more := by
  induction lines with
  | nil => exact behind_empty some
  | cons line lines inductionHypothesis =>
    obtain ⟨first, others⟩ := List.forall_mem_cons.mp filled
    rw [List.cons_append, behind_filled first, inductionHypothesis others]

/-- The message is what stands behind the first empty line that is not the first of all. -/
theorem readMessage_behind (bytes : Bytes) :
    readMessage bytes = behind (Utf8.pieces bytes).tail := by
  have message (bytes : Bytes) : readMessage bytes =
      ((Pieces.cutWord? [0x0A, 0x0A] bytes).map (·.2)).elim "" Utf8.decodeLossy := by
    rw [readMessage]
    cases Pieces.cutWord? [0x0A, 0x0A] bytes <;> rfl
  induction bytes using Pieces.cut_induction (0x0A : UInt8) with
  | whole piece free =>
    rw [message, Pieces.cutWord?_whole free, Utf8.pieces_whole free]
    rfl
  | cut piece rest free inductionHypothesis =>
    rw [message, Pieces.cutWord?_append free, Utf8.pieces_cut, Utf8.pieces_whole free,
      List.singleton_append, List.tail_cons]
    cases rest with
    | nil => rfl
    | cons next rest =>
      by_cases same : next = 0x0A
      · subst same
        have cut : Utf8.pieces (0x0A :: rest) = "" :: Utf8.pieces rest := Utf8.pieces_cut [] rest
        rw [cut, behind_empty (Utf8.pieces_ne_nil rest), Utf8.intercalate_pieces]
        rfl
      · obtain ⟨piece, parts, cut⟩ := Pieces.split_cons_other same rest
        rw [List.head?_cons, if_neg (by simpa using same), ← message, inductionHypothesis,
          Utf8.pieces, cut, List.map_cons, behind_filled (by simp [Utf8.decodeLossy_eq_empty]),
          List.tail_cons]

/-- Leniently read text is read as the same message again. -/
theorem readMessage_again (bytes : Bytes) :
    readMessage (Utf8.encode (Utf8.decodeLossy bytes)) = readMessage bytes := by
  rw [readMessage_behind, readMessage_behind, Utf8.pieces_again]

variable {word : String}

/-- What some lines name, and then others, is what all of them name. -/
@[simp] theorem textsAfter_append (word : String) (before after : List String) :
    textsAfter word (before ++ after) = textsAfter word before ++ textsAfter word after :=
  List.filterMap_append

/-- What stands in front begins the texts after a word. -/
theorem textsAfter_front (word : String) (lines : List String) :
    ∃ more, textsAfter word lines = textsAfter word (front lines) ++ more := by
  obtain ⟨rest, whole⟩ : front lines <+: lines := List.takeWhile_prefix _
  refine ⟨textsAfter word rest, ?_⟩
  rw [← textsAfter_append, whole]

/-- A line feed stands in no text after a word. -/
theorem newline_not_mem_textsAfter {text : String}
    (member : text ∈ textsAfter word (Utf8.pieces bytes)) : '\n' ∉ text.toList := by
  obtain ⟨piece, inside, found⟩ := List.mem_filterMap.mp member
  obtain ⟨rest, after, rfl⟩ := Option.map_eq_some_iff.mp found
  intro newline
  rw [String.toList_ofList] at newline
  refine Utf8.newline_not_mem inside ?_
  rw [Pieces.eq_of_afterStart? after]
  exact List.mem_append_right _ newline

/-- The first text after a word is that of the first line that begins with it. -/
theorem head?_textsAfter (word : String) (lines : List String) :
    (textsAfter word lines).head? =
      ((lines.map String.toList).findSome? (Pieces.afterStart? word.toList)).map String.ofList := by
  induction lines with
  | nil => rfl
  | cons line lines inductionHypothesis =>
    rw [textsAfter, List.filterMap_cons, List.map_cons, List.findSome?_cons]
    cases Pieces.afterStart? word.toList line.toList with
    | none => exact inductionHypothesis
    | some text => rfl

/-- Lines in front of a line feed are searched first, without carriage returns at their ends. -/
theorem lineAfter?_cut (plain : '\r' ∉ word.toList) (before after : Bytes) :
    lineAfter? word (Text.charLines (Utf8.decodeLossy (before ++ 0x0A :: after)).toList) =
      ((textsAfter word (Utf8.pieces before)).head?.map Text.withoutReturn).or
        (lineAfter? word (Text.charLines (Utf8.decodeLossy after).toList)) := by
  have more : (Utf8.pieces after).map String.toList ≠ [] := by
    simpa using Utf8.pieces_ne_nil after
  rw [lineAfter?, Text.charLines, ← Utf8.toList_pieces, Utf8.pieces_cut, List.map_append,
    Text.linesOfPieces_append _ more, List.findSome?_append, Text.findSome?_map_dropReturn plain,
    head?_textsAfter, Utf8.toList_pieces after]
  cases ((Utf8.pieces before).map String.toList).findSome? (Pieces.afterStart? word.toList) with
  | none => rfl
  | some text => simp [Text.withoutReturn]

/-- The first line that begins with a word is the first such piece, perhaps without a carriage
return at its end. -/
theorem lineAfter?_pieces (word : String) (plain : '\r' ∉ word.toList) (filled : word.toList ≠ [])
    (bytes : Bytes) :
    ∃ form : String → String, (form = id ∨ form = Text.withoutReturn) ∧
      lineAfter? word (Text.charLines (Utf8.decodeLossy bytes).toList) =
        (textsAfter word (Utf8.pieces bytes)).head?.map form := by
  induction bytes using Pieces.cut_induction (0x0A : UInt8) with
  | whole piece free =>
    refine ⟨id, .inl rfl, ?_⟩
    rw [lineAfter?, Text.charLines, ← Utf8.toList_pieces, Option.map_id_fun, id_eq,
      head?_textsAfter, Utf8.pieces_whole free, List.map_singleton]
    cases (Utf8.decodeLossy piece).toList with
    | nil => cases letters : word.toList <;> simp_all [Text.linesOfPieces, Pieces.afterStart?]
    | cons first rest => rfl
  | cut piece rest free inductionHypothesis =>
    obtain ⟨form, kind, found⟩ := inductionHypothesis
    rw [lineAfter?_cut plain, Utf8.pieces_cut, textsAfter_append, List.head?_append]
    cases (textsAfter word (Utf8.pieces piece)).head? with
    | none => exact ⟨form, kind, found⟩
    | some text => exact ⟨Text.withoutReturn, .inr rfl, rfl⟩

end Commit

end Ancestry
