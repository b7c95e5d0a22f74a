import Ancestry.Proofs.Commits.Agreement
import Ancestry.Proofs.Text.Hexadecimal

/-!
# Commits read as they are written

A commit whose people may be written is read back from its payload, in full as well as by its
header and its message. The header lines hold no line feed, whatever names and addresses hold,
so that the message begins behind the first empty line; it may hold anything.
-/

namespace Ancestry

/-- A person is written on one line. -/
theorem Person.newline_not_mem_display {person : Person} (writable : person.Writable) :
    '\n' ∉ person.display.toList := by
  have zone : '\n' ∉ person.time.zone.toList := by
    obtain ⟨_, _, _, _, _, _, shown⟩ := Calendar.Reading.zone_chars writable.time
    exact fun member => absurd (shown '\n' member) (by decide)
  have seconds : '\n' ∉ (toString person.time.seconds).toList :=
    Text.not_mem_toString (by decide) (by decide) _
  rw [Int.toString_eq_repr] at seconds
  simp [display, displayName, writable.nameLine, writable.emailLine, seconds, zone]

namespace Commit

variable {commit : Commit} {tree : ObjectId} {parents : List ObjectId} {author committer : String}
  {one other : Person}

/-- What is written of a commit is read again: in full, as a header and as a message. -/
structure Recovers (commit : Commit) : Prop where
  full : parse commit.payload = .ok commit
  header : CommitHeader.parse commit.payload =
    .ok ⟨commit.tree, commit.parents, commit.committer.time.seconds⟩
  message : readMessage commit.payload = commit.message

/-- The header lines of a commit whose people are written as given. -/
def linesOf (tree : ObjectId) (parents : List ObjectId) (author committer : String) :
    List String :=
  ["tree " ++ tree.toHex] ++ parents.map (fun parent => "parent " ++ parent.toHex) ++
    ["author " ++ author, "committer " ++ committer]

/-- The header lines of a commit are those with its people as they are shown. -/
theorem headerLines_eq (commit : Commit) : commit.headerLines =
    linesOf commit.tree commit.parents commit.author.display commit.committer.display := rfl

/-- The header lines in bytes. -/
def blockOf (tree : ObjectId) (parents : List ObjectId) (author committer : String) : Bytes :=
  Utf8.encode ("\n".intercalate (linesOf tree parents author committer))

/-- A commit has lines in front of its message. -/
theorem linesOf_ne_nil : linesOf tree parents author committer ≠ [] := by simp [linesOf]

/-- A payload is the header lines with the message behind them. -/
theorem payload_eq (commit : Commit) :
    commit.payload = withMessage
      (blockOf commit.tree commit.parents commit.author.display commit.committer.display)
      (Utf8.encode commit.message) := by
  have last : "\n".intercalate ["", commit.message] = "\n" ++ commit.message := by
    rw [String.intercalate_cons_cons, String.intercalate_singleton, String.empty_append]
  rw [payload, headerLines_eq, String.intercalate_append_of_ne_nil linesOf_ne_nil
    (List.cons_ne_nil _ _), last, Utf8.encode_append, Utf8.encode_append, Utf8.encode_append,
    List.append_assoc]
  rfl

/-- Header lines are not empty and hold no line feed. -/
theorem linesOf_plain (authored : '\n' ∉ author.toList) (committed : '\n' ∉ committer.toList)
    {line : String} (member : line ∈ linesOf tree parents author committer) :
    line ≠ "" ∧ '\n' ∉ line.toList := by
  have worded {word text : String} (filled : word ≠ "") (plain : '\n' ∉ word.toList)
      (whole : '\n' ∉ text.toList) : word ++ text ≠ "" ∧ '\n' ∉ (word ++ text).toList := by
    refine ⟨by simp [filled], ?_⟩
    rw [String.toList_append, List.mem_append]
    exact not_or.mpr ⟨plain, whole⟩
  have digits (id : ObjectId) : '\n' ∉ id.toHex.toList := by
    rw [ObjectId.toList_toHex]
    exact fun newline => (ObjectId.of_mem_hexChars newline).2.2.1 rfl
  simp only [linesOf, List.mem_append, List.mem_cons, List.mem_map, List.not_mem_nil,
    or_false] at member
  rcases member with (rfl | ⟨parent, _, rfl⟩) | rfl | rfl
  · exact worded (by decide) (by decide) (digits tree)
  · exact worded (by decide) (by decide) (digits parent)
  · exact worded (by decide) (by decide) authored
  · exact worded (by decide) (by decide) committed

/-- The header lines are the lines of the block that they make, and all of them stand in front
of the first empty one. -/
theorem pieces_blockOf (tree : ObjectId) (parents : List ObjectId)
    (authored : '\n' ∉ author.toList) (committed : '\n' ∉ committer.toList) :
    Utf8.pieces (blockOf tree parents author committer) = linesOf tree parents author committer ∧
      front (linesOf tree parents author committer) = linesOf tree parents author committer := by
  constructor
  · exact Utf8.pieces_encode linesOf_ne_nil fun _ member =>
      (linesOf_plain authored committed member).2
  · refine List.takeWhile_eq_self_iff.mpr fun line member => ?_
    simpa using (linesOf_plain authored committed member).1

/-- Parent lines add the parents in their order. -/
theorem foldlM_parents (parents : List ObjectId) (header : PartialHeader) :
    (parents.map fun parent => "parent " ++ parent.toHex).foldlM PartialHeader.readLine header =
      .ok { header with parents := header.parents ++ parents } := by
  induction parents generalizing header with
  | nil =>
    rw [List.append_nil]
    rfl
  | cons parent parents inductionHypothesis =>
    have first := PartialHeader.readLine_iff.mpr (.parent header (ObjectId.parse_toHex parent))
    rw [List.map_cons, List.foldlM_cons, first]
    refine (inductionHypothesis _).trans ?_
    rw [List.append_assoc, List.singleton_append]

/-- The header lines make the header. -/
theorem ofLines_linesOf (committerRead : Person.parse committer = .ok other) :
    CommitHeader.ofLines (linesOf tree parents author committer) =
      .ok ⟨tree, parents, other.time.seconds⟩ := by
  have first := PartialHeader.readLine_iff.mpr (.tree {} (ObjectId.parse_toHex tree))
  have second := foldlM_parents parents { tree := some tree }
  have authored (header : PartialHeader) : header.readLine ("author " ++ author) = .ok header := by
    refine PartialHeader.readLine_iff.mpr (.nothing header fun word member => ?_)
    simp only [List.mem_cons, List.not_mem_nil, or_false] at member
    rcases member with rfl | rfl | rfl <;> exact PartialHeader.textsAfter_other (by decide) _
  have committed (header : PartialHeader) :=
    PartialHeader.readLine_iff.mpr (.committer header committerRead)
  have going {α β : Type} (value : α) (next : α → Except CommitFault β) :
      (Except.ok value >>= next) = next value := rfl
  have folded : (linesOf tree parents author committer).foldlM PartialHeader.readLine {} =
      .ok ⟨some tree, parents, some other.time.seconds⟩ := by
    rw [linesOf, List.append_assoc, List.singleton_append, List.foldlM_cons, first, going,
      List.foldlM_append, second, going, List.foldlM_cons, authored, going, List.foldlM_cons,
      committed, going]
    rfl
  rw [CommitHeader.ofLines, folded]
  rfl

/-- The texts after a word in header lines that begin with another. -/
theorem textsAfter_map {word other : String}
    (apart : (word.toList.zip other.toList).any fun pair => pair.1 != pair.2)
    (parents : List ObjectId) :
    textsAfter word (parents.map fun parent => other ++ parent.toHex) = [] := by
  induction parents with
  | nil => rfl
  | cons parent parents inductionHypothesis =>
    rw [List.map_cons, ← List.singleton_append, textsAfter_append,
      PartialHeader.textsAfter_other apart, inductionHypothesis, List.nil_append]

/-- The header lines name one author and one committer. -/
theorem textsAfter_linesOf (tree : ObjectId) (parents : List ObjectId)
    (author committer : String) :
    textsAfter "author " (linesOf tree parents author committer) = [author] ∧
      textsAfter "committer " (linesOf tree parents author committer) = [committer] := by
  have lines : linesOf tree parents author committer = ["tree " ++ tree.toHex] ++
      (parents.map (fun parent => "parent " ++ parent.toHex) ++
        (["author " ++ author] ++ ["committer " ++ committer])) := by
    rw [linesOf, List.append_assoc]
    rfl
  rw [lines]
  simp only [textsAfter_append]
  constructor
  · rw [PartialHeader.textsAfter_other (by decide), textsAfter_map (by decide),
      PartialHeader.textsAfter_same, PartialHeader.textsAfter_other (by decide)]
    rfl
  · rw [PartialHeader.textsAfter_other (by decide), textsAfter_map (by decide),
      PartialHeader.textsAfter_other (by decide), PartialHeader.textsAfter_same]
    rfl

/-- A block of header lines is read as a header. -/
theorem parse_blockOf (authored : '\n' ∉ author.toList) (committed : '\n' ∉ committer.toList)
    (committerRead : Person.parse committer = .ok other) :
    CommitHeader.parse (blockOf tree parents author committer) =
      .ok ⟨tree, parents, other.time.seconds⟩ := by
  obtain ⟨pieces, whole⟩ := pieces_blockOf tree parents authored committed
  rw [CommitHeader.parse_front, pieces, whole, ofLines_linesOf committerRead]

/-- A commit whose people may be written is read back. -/
theorem recovers_of_writable (author : commit.author.Writable)
    (committer : commit.committer.Writable) : Recovers commit := by
  have authored := Person.newline_not_mem_display author
  have committed := Person.newline_not_mem_display committer
  obtain ⟨pieces, _⟩ := pieces_blockOf commit.tree commit.parents authored committed
  have header : CommitHeader.parse commit.payload =
      .ok ⟨commit.tree, commit.parents, commit.committer.time.seconds⟩ := by
    rw [payload_eq, parse_withMessage,
      parse_blockOf authored committed (Person.parse_display committer)]
  have message : readMessage commit.payload = commit.message := by
    rw [readMessage_behind, payload_eq, pieces_withMessage, pieces,
      List.tail_append_of_ne_nil linesOf_ne_nil,
      behind_append (fun line member =>
        (linesOf_plain authored committed (List.mem_of_mem_tail member)).1)
        (Utf8.pieces_ne_nil _),
      Utf8.intercalate_pieces, Utf8.decodeLossy_encode]
  have first {word text : String} (named : textsAfter word
      (linesOf commit.tree commit.parents commit.author.display commit.committer.display) =
        [text]) : (textsAfter word (Utf8.pieces commit.payload)).head? = some text := by
    rw [payload_eq, pieces_withMessage, pieces, textsAfter_append, named]
    rfl
  obtain ⟨namesAuthor, namesCommitter⟩ := textsAfter_linesOf commit.tree commit.parents
    commit.author.display commit.committer.display
  refine ⟨?_, header, message⟩
  rw [parse_of_pieces header (first namesAuthor) (first namesCommitter)
    (Person.parse_display author) (Person.parse_display committer), message]

/-- People that are read from a payload may be written. -/
theorem writable_of_lineAfter? {word text : String} {person : Person} {bytes : Bytes}
    (plain : '\r' ∉ word.toList) (filled : word.toList ≠ [])
    (found : lineAfter? word (Text.charLines (Utf8.decodeLossy bytes).toList) = some text)
    (read : Person.parse text = .ok person) : person.Writable := by
  obtain ⟨form, kind, same⟩ := lineAfter?_pieces word plain filled bytes
  rw [found] at same
  obtain ⟨whole, first, rfl⟩ := Option.map_eq_some_iff.mp same.symm
  have line := newline_not_mem_textsAfter (List.mem_of_mem_head? first)
  refine (Person.writable_of_parse read fun newline => line ?_).1
  rcases kind with rfl | rfl
  · exact newline
  · rw [Text.withoutReturn, String.toList_ofList] at newline
    exact Text.dropReturn_subset _ newline

/-- Whatever commit is made of a person that may be written, and whatever commit is read from
a payload, is read again as it is written.

Proof: a person that was read from one line may be written, so that the second part is a case of
what holds of all people that may be written. -/
theorem written_recovers :
    (∀ tree parents person message, person.Writable →
      Recovers (ofAuthor tree parents person message)) ∧
    ∀ bytes commit, parse bytes = .ok commit → Recovers commit := by
  refine ⟨fun tree parents person message writable => recovers_of_writable writable writable,
    fun bytes commit read => ?_⟩
  obtain ⟨_, author, committer, _, authorFound, committerFound, authorRead, committerRead, _⟩ :=
    parse_iff.mp read
  exact recovers_of_writable
    (writable_of_lineAfter? (by decide) (by decide) authorFound authorRead)
    (writable_of_lineAfter? (by decide) (by decide) committerFound committerRead)

/-- A person with brackets in name and address, and an odd offset. -/
def bracketed : Person := ⟨"A > B", " b> <c ", ⟨-1, -86340⟩⟩

/-- A commit whose author has brackets in the address, under a message that looks like an author,
and one that was read with two committers. -/
theorem written_recovers_bracketed :
    bracketed.Writable ∧
      Recovers (ofAuthor ObjectId.zero [ObjectId.zero] bracketed "\n\nauthor A <a> 0 +0000\n") ∧
      parse twiceCommitted = .ok twiceCommittedRead ∧ Recovers twiceCommittedRead := by
  have writable : bracketed.Writable :=
    ⟨by decide, by decide, by decide, by decide, by decide, by decide, by decide, by decide,
      by decide⟩
  exact ⟨writable, written_recovers.1 _ _ _ _ writable, twiceCommitted_reads,
    written_recovers.2 _ _ twiceCommitted_reads⟩

end Commit

end Ancestry
