import Ancestry.Proofs.Commits.Headers

/-!
# Readings of one payload

The header that a walk reads and the commit that a log shows come from the same payload. They
agree on the tree, the parents and the message. The header has the seconds of the last
committer that is named before the first empty line, the commit has the first.

A message is no part of the header, and of the people it can give only an author, where the
lines in front of it name none.
-/

namespace Ancestry

namespace Commit

variable {bytes : Bytes} {commit : Commit} {header : CommitHeader} {text word : String}

/-- What reading a payload comes to. -/
theorem parse_iff : parse bytes = .ok commit ↔
    ∃ header author committer, CommitHeader.parse bytes = .ok header ∧
      lineAfter? "author " (Text.charLines (Utf8.decodeLossy bytes).toList) = some author ∧
      lineAfter? "committer " (Text.charLines (Utf8.decodeLossy bytes).toList) = some committer ∧
      Person.parse author = .ok commit.author ∧ Person.parse committer = .ok commit.committer ∧
      header.tree = commit.tree ∧ header.parents = commit.parents ∧
      readMessage bytes = commit.message := by
  constructor
  · intro read
    unfold parse at read
    split at read
    · cases read
    · rename_i header headerRead
      dsimp only at read
      split at read
      · cases read
      · rename_i author authorFound
        split at read
        · cases read
        · rename_i committer committerFound
          split at read
          · cases read
          · rename_i authorPerson authorRead
            split at read
            · cases read
            · rename_i committerPerson committerRead
              cases read
              exact ⟨header, author, committer, headerRead, authorFound, committerFound, authorRead,
                committerRead, rfl, rfl, (readMessage_again bytes).symm⟩
  · rintro ⟨header, author, committer, headerRead, authorFound, committerFound, authorRead,
      committerRead, tree, parents, message⟩
    unfold parse
    simp only [headerRead, authorFound, committerFound, authorRead, committerRead,
      readMessage_again, tree, parents, message]

/-- A line that names a person does not end in a carriage return. -/
theorem withoutReturn_eq {person : Person} (read : Person.parse text = .ok person)
    (line : '\n' ∉ text.toList) : Text.withoutReturn text = text := by
  obtain ⟨_, last, digit, front, whole⟩ := Person.writable_of_parse read line
  rw [Text.withoutReturn, Text.dropReturn_eq, String.ofList_toList]
  rw [← whole, List.getLast?_concat]
  rintro ⟨rfl⟩
  exact absurd digit (by decide)

/-- The first text after a word is found as it is where it is read as a person. -/
theorem lineAfter?_person (plain : '\r' ∉ word.toList) (filled : word.toList ≠ [])
    {person : Person} (first : (textsAfter word (Utf8.pieces bytes)).head? = some text)
    (read : Person.parse text = .ok person) :
    lineAfter? word (Text.charLines (Utf8.decodeLossy bytes).toList) = some text := by
  obtain ⟨form, kind, found⟩ := lineAfter?_pieces word plain filled bytes
  rw [found, first, Option.map_some]
  rcases kind with rfl | rfl
  · rfl
  · exact congrArg some
      (withoutReturn_eq read (newline_not_mem_textsAfter (List.mem_of_mem_head? first)))

/-- A payload is read in full when its pieces make a header and name two people first. -/
theorem parse_of_pieces {author committer : String} {one other : Person}
    (headerRead : CommitHeader.parse bytes = .ok header)
    (authors : (textsAfter "author " (Utf8.pieces bytes)).head? = some author)
    (committers : (textsAfter "committer " (Utf8.pieces bytes)).head? = some committer)
    (authorRead : Person.parse author = .ok one)
    (committerRead : Person.parse committer = .ok other) :
    parse bytes = .ok ⟨header.tree, header.parents, one, other, readMessage bytes⟩ :=
  parse_iff.mpr ⟨header, author, committer, headerRead,
    lineAfter?_person (by decide) (by decide) authors authorRead,
    lineAfter?_person (by decide) (by decide) committers committerRead, authorRead, committerRead,
    rfl, rfl, rfl⟩

/-- The first committer of a header is the one that the full reading takes. -/
theorem first_committer (read : CommitHeader.parse bytes = .ok header) :
    ∃ text person people,
      lineAfter? "committer " (Text.charLines (Utf8.decodeLossy bytes).toList) = some text ∧
      (textsAfter "committer " (front (Utf8.pieces bytes))).map Person.parse =
        (person :: people).map .ok ∧
      Person.parse text = .ok person ∧
      (person :: people).getLast?.map (·.time.seconds) = some header.time := by
  rw [CommitHeader.parse_front] at read
  obtain ⟨people, named, time⟩ := CommitHeader.ofLines_time read
  obtain ⟨more, begins⟩ := textsAfter_front "committer " (Utf8.pieces bytes)
  cases people with
  | nil => simp at time
  | cons person people =>
    cases texts : textsAfter "committer " (front (Utf8.pieces bytes)) with
    | nil => simp [texts] at named
    | cons text more =>
      rw [texts, List.cons_append] at begins
      rw [texts] at named
      have first : Person.parse text = .ok person := (List.cons.inj named).1
      have head : (textsAfter "committer " (Utf8.pieces bytes)).head? = some text := by
        rw [begins, List.head?_cons]
      exact ⟨text, person, people, lineAfter?_person (by decide) (by decide) head first, named,
        first, time⟩

/-- A payload that is read in full is read as a header with the same tree and parents; its
message is the same. The seconds are those of the last committer before the first empty line,
where the full reading takes the first.

Proof: both readings see the same lines. A header is only read where every committer can be, and of
their list one reading keeps the head and the other the last. -/
theorem readings_agree (read : parse bytes = .ok commit) :
    ∃ header, CommitHeader.parse bytes = .ok header ∧ header.tree = commit.tree ∧
      header.parents = commit.parents ∧ readMessage bytes = commit.message ∧
      ∃ people : List Person,
        (textsAfter "committer " (front (Utf8.pieces bytes))).map Person.parse = people.map .ok ∧
          people.head? = some commit.committer ∧
          people.getLast?.map (·.time.seconds) = some header.time := by
  obtain ⟨header, author, committer, headerRead, _, found, _, committerRead, tree, parents,
    message⟩ := parse_iff.mp read
  obtain ⟨text, person, people, first, named, personRead, time⟩ := first_committer headerRead
  obtain rfl : text = committer := Option.some.inj (first.symm.trans found)
  have same : person = commit.committer := Except.ok.inj (personRead.symm.trans committerRead)
  exact ⟨header, headerRead, tree, parents, message, person :: people, named, congrArg some same,
    time⟩

/-- Three people and how they are written. -/
theorem people_read :
    Person.parse "A <a> 0 +0000" = .ok ⟨"A", "a", ⟨0, 0⟩⟩ ∧
      Person.parse "B <b> 1 +0000" = .ok ⟨"B", "b", ⟨1, 0⟩⟩ ∧
      Person.parse "C <c> 2 +0000" = .ok ⟨"C", "c", ⟨2, 0⟩⟩ := by decide

/-- Lines of which the first committer acted at second 1 and the last at second 2. -/
def twiceCommittedLines : List String :=
  ["tree 0000000000000000000000000000000000000000", "author A <a> 0 +0000",
    "committer B <b> 1 +0000", "committer C <c> 2 +0000", "", "m"]

/-- The payload of these lines. -/
def twiceCommitted : Bytes := Utf8.encode ("\n".intercalate twiceCommittedLines)

/-- The commit that is read from it in full. -/
def twiceCommittedRead : Commit :=
  ⟨ObjectId.zero, [], ⟨"A", "a", ⟨0, 0⟩⟩, ⟨"B", "b", ⟨1, 0⟩⟩, "m"⟩

/-- What the readers of a commit see in these lines, by evaluation. -/
theorem twiceCommittedLines_read :
    (∀ line ∈ twiceCommittedLines, '\n' ∉ line.toList) ∧
      CommitHeader.ofLines (front twiceCommittedLines) = .ok ⟨ObjectId.zero, [], 2⟩ ∧
      textsAfter "author " twiceCommittedLines = ["A <a> 0 +0000"] ∧
      textsAfter "committer " twiceCommittedLines = ["B <b> 1 +0000", "C <c> 2 +0000"] := by
  decide

/-- The payload is cut into the lines that it was made of. -/
theorem pieces_twiceCommitted : Utf8.pieces twiceCommitted = twiceCommittedLines :=
  Utf8.pieces_encode (List.cons_ne_nil _ _) twiceCommittedLines_read.1

/-- The reader of headers takes the time of the last committer. -/
theorem twiceCommitted_header :
    CommitHeader.parse twiceCommitted = .ok ⟨ObjectId.zero, [], 2⟩ := by
  rw [CommitHeader.parse_front, pieces_twiceCommitted, twiceCommittedLines_read.2.1]

/-- The reader of whole commits takes the first committer. -/
theorem twiceCommitted_reads : parse twiceCommitted = .ok twiceCommittedRead := by
  have message : readMessage twiceCommitted = "m" := by
    rw [readMessage_behind, pieces_twiceCommitted]
    decide
  obtain ⟨_, _, authors, committers⟩ := twiceCommittedLines_read
  rw [parse_of_pieces twiceCommitted_header (by rw [pieces_twiceCommitted, authors]; rfl)
    (by rw [pieces_twiceCommitted, committers]; rfl) people_read.1 people_read.2.1, message]
  rfl

/-- Both readers read a payload with two committers, each one its own. -/
theorem readings_agree_twice :
    parse twiceCommitted = .ok twiceCommittedRead ∧
      ∃ header, CommitHeader.parse twiceCommitted = .ok header ∧
        header.tree = twiceCommittedRead.tree ∧ header.parents = twiceCommittedRead.parents ∧
        readMessage twiceCommitted = twiceCommittedRead.message ∧
        ∃ people : List Person,
          (textsAfter "committer " (front (Utf8.pieces twiceCommitted))).map Person.parse =
              people.map .ok ∧
            people.head? = some twiceCommittedRead.committer ∧
            people.getLast?.map (·.time.seconds) = some header.time :=
  ⟨twiceCommitted_reads, readings_agree twiceCommitted_reads⟩

/-- The two readings of a payload with two committers give different seconds. -/
theorem readings_differ : ∃ commit header, parse twiceCommitted = .ok commit ∧
    CommitHeader.parse twiceCommitted = .ok header ∧ header.time ≠ commit.committer.time.seconds :=
  ⟨_, _, twiceCommitted_reads, twiceCommitted_header, by decide⟩

/-- A payload with a message behind the first lines. -/
def withMessage (block message : Bytes) : Bytes := block ++ 0x0A :: 0x0A :: message

/-- Two readings that both fail, or both give the same tree, parents and people. -/
def Alike : Except CommitFault Commit → Except CommitFault Commit → Prop
  | .ok first, .ok second =>
    first.tree = second.tree ∧ first.parents = second.parents ∧ first.author = second.author ∧
      first.committer = second.committer
  | .error _, .error _ => True
  | _, _ => False

variable {block message : Bytes}

/-- The lines of a block stand in front of those of its message, with an empty one between them. -/
theorem pieces_withMessage (block message : Bytes) :
    Utf8.pieces (withMessage block message) = Utf8.pieces block ++ "" :: Utf8.pieces message := by
  have cut : Utf8.pieces (0x0A :: message) = "" :: Utf8.pieces message := Utf8.pieces_cut [] message
  rw [withMessage, Utf8.pieces_cut, cut]

/-- The header of a payload is that of the lines in front of the message. -/
theorem parse_withMessage (block message : Bytes) :
    CommitHeader.parse (withMessage block message) = CommitHeader.parse block := by
  have fronts (lines rest : List String) : front (lines ++ "" :: rest) = front lines := by
    induction lines with
    | nil => simp [front]
    | cons line lines inductionHypothesis =>
      rw [front, front, List.cons_append, List.takeWhile_cons, List.takeWhile_cons]
      split
      · exact congrArg (line :: ·) inductionHypothesis
      · rfl
  rw [CommitHeader.parse_front, CommitHeader.parse_front, pieces_withMessage, fronts]

/-- A message is searched for a word where the lines in front of it do not have it. -/
theorem lineAfter?_withMessage (word : String) (plain : '\r' ∉ word.toList)
    (filled : word.toList ≠ []) (block message : Bytes) :
    lineAfter? word (Text.charLines (Utf8.decodeLossy (withMessage block message)).toList) =
      ((textsAfter word (Utf8.pieces block)).head?.map Text.withoutReturn).or
        (lineAfter? word (Text.charLines (Utf8.decodeLossy message).toList)) := by
  have empty : textsAfter word (Utf8.pieces []) = [] := by
    rw [Utf8.pieces_whole List.not_mem_nil, textsAfter, List.filterMap_cons]
    cases letters : word.toList with
    | nil => exact absurd letters filled
    | cons first rest => rfl
  have newline := lineAfter?_cut plain [] message
  rw [List.nil_append, empty] at newline
  rw [withMessage, lineAfter?_cut plain, newline]
  rfl

/-- Payloads with one header and the same texts of people are read alike. -/
theorem alike_of_texts {first second : Bytes}
    (headers : CommitHeader.parse first = CommitHeader.parse second)
    (authors : lineAfter? "author " (Text.charLines (Utf8.decodeLossy first).toList) =
      lineAfter? "author " (Text.charLines (Utf8.decodeLossy second).toList))
    (committers : lineAfter? "committer " (Text.charLines (Utf8.decodeLossy first).toList) =
      lineAfter? "committer " (Text.charLines (Utf8.decodeLossy second).toList)) :
    Alike (parse first) (parse second) := by
  unfold parse
  simp only [headers, authors, committers]
  cases CommitHeader.parse second with
  | error fault => trivial
  | ok header =>
    cases lineAfter? "author " (Text.charLines (Utf8.decodeLossy second).toList) with
    | none => trivial
    | some author =>
      cases lineAfter? "committer " (Text.charLines (Utf8.decodeLossy second).toList) with
      | none => trivial
      | some committer =>
        cases authorRead : Person.parse author with
        | error fault => simp only [authorRead, Alike]
        | ok person =>
          cases committerRead : Person.parse committer with
          | error fault => simp only [authorRead, committerRead, Alike]
          | ok other => simp only [authorRead, committerRead, Alike, and_self]

/-- The lines of a header name a committer. -/
theorem textsAfter_committer (read : CommitHeader.parse block = .ok header) :
    textsAfter "committer " (Utf8.pieces block) ≠ [] := by
  rw [CommitHeader.parse_front] at read
  obtain ⟨people, named, time⟩ := CommitHeader.ofLines_time read
  obtain ⟨more, begins⟩ := textsAfter_front "committer " (Utf8.pieces block)
  rw [begins]
  intro none
  rw [(List.append_eq_nil_iff.mp none).1] at named
  obtain rfl : people = [] := List.map_eq_nil_iff.mp named.symm
  simp at time

/-- What a block names is read from it under every message. -/
theorem lineAfter?_block (word : String) (plain : '\r' ∉ word.toList) (filled : word.toList ≠ [])
    (named : textsAfter word (Utf8.pieces block) ≠ []) (first second : Bytes) :
    lineAfter? word (Text.charLines (Utf8.decodeLossy (withMessage block first)).toList) =
      lineAfter? word (Text.charLines (Utf8.decodeLossy (withMessage block second)).toList) := by
  rw [lineAfter?_withMessage word plain filled, lineAfter?_withMessage word plain filled]
  cases texts : textsAfter word (Utf8.pieces block) with
  | nil => exact absurd texts named
  | cons text more => rfl

/-- A message that reads as an author line. -/
def authorLine : Bytes := Utf8.encode "author A <a> 0 +0000"

/-- The payload of an author line is one line. -/
theorem pieces_authorLine : Utf8.pieces authorLine = ["author " ++ "A <a> 0 +0000"] := by
  decide

/-- The author that this line names. -/
theorem authorLine_text :
    (textsAfter "author " (Utf8.pieces authorLine)).head? = some "A <a> 0 +0000" := by
  rw [pieces_authorLine, PartialHeader.textsAfter_same, List.head?_singleton]

/-- A block without an author is a payload under one message and none under another. -/
theorem author_from_message (read : CommitHeader.parse block = .ok header)
    (unnamed : textsAfter "author " (Utf8.pieces block) = []) :
    (∃ commit, parse (withMessage block authorLine) = .ok commit) ∧
      parse (withMessage block []) = .error .noAuthor := by
  have author (message : Bytes) :=
    lineAfter?_withMessage "author " (by decide) (by decide) block message
  rw [unnamed] at author
  constructor
  · have whole : CommitHeader.parse (withMessage block authorLine) = .ok header := by
      rw [parse_withMessage, read]
    obtain ⟨text, committer, _, found, _, committerRead, _⟩ := first_committer whole
    have named : lineAfter? "author " (Text.charLines (Utf8.decodeLossy
        (withMessage block authorLine)).toList) = some "A <a> 0 +0000" := by
      rw [author, lineAfter?_person (by decide) (by decide) authorLine_text people_read.1]
      rfl
    exact ⟨⟨header.tree, header.parents, _, committer, _⟩,
      parse_iff.mpr ⟨header, _, text, whole, named, found, people_read.1, committerRead, rfl, rfl,
        rfl⟩⟩
  · have none : lineAfter? "author " (Text.charLines (Utf8.decodeLossy
        (withMessage block [])).toList) = none := author []
    unfold parse
    simp only [parse_withMessage, read, none]

/-- All messages behind a block are read alike when the block makes no header or names an
author, and only then. Tree, parents and committer never depend on the message.

Proof: a header names a committer, so that the first one stands in the block. Where the block names
no author an author's line is a message that names one, and the empty message names none. -/
theorem messages_alike (block : Bytes) :
    ((∀ first second, Alike (parse (withMessage block first)) (parse (withMessage block second))) ↔
      (∃ fault, CommitHeader.parse block = .error fault) ∨
        textsAfter "author " (Utf8.pieces block) ≠ []) ∧
    ∀ first second one other, parse (withMessage block first) = .ok one →
      parse (withMessage block second) = .ok other →
        one.tree = other.tree ∧ one.parents = other.parents ∧ one.committer = other.committer := by
  have headers (first second : Bytes) : CommitHeader.parse (withMessage block first) =
      CommitHeader.parse (withMessage block second) := by
    rw [parse_withMessage, parse_withMessage]
  have committers {header : CommitHeader} (read : CommitHeader.parse block = .ok header) :=
    lineAfter?_block "committer " (by decide) (by decide) (textsAfter_committer read)
  refine ⟨⟨fun alike => ?_, fun either first second => ?_⟩, ?_⟩
  · cases read : CommitHeader.parse block with
    | error fault => exact .inl ⟨fault, rfl⟩
    | ok header =>
      refine .inr fun unnamed => ?_
      obtain ⟨⟨commit, given⟩, refused⟩ := author_from_message read unnamed
      have both := alike authorLine []
      rw [given, refused] at both
      exact both
  · cases read : CommitHeader.parse block with
    | error fault =>
      have refused (message : Bytes) : parse (withMessage block message) = .error fault := by
        unfold parse
        simp only [parse_withMessage, read]
      rw [refused first, refused second]
      trivial
    | ok header =>
      have named := either.resolve_left (by simp [read])
      exact alike_of_texts (headers first second)
        (lineAfter?_block "author " (by decide) (by decide) named first second)
        (committers read first second)
  · intro first second one other oneRead otherRead
    obtain ⟨header, _, text, read, _, found, _, person, tree, parents, _⟩ := parse_iff.mp oneRead
    obtain ⟨header', _, text', read', _, found', _, person', tree', parents', _⟩ :=
      parse_iff.mp otherRead
    obtain rfl : header = header' := Except.ok.inj (read.symm.trans ((headers _ _).trans read'))
    have inBlock : CommitHeader.parse block = .ok header := by
      rw [← parse_withMessage block first, read]
    obtain rfl : text = text' :=
      Option.some.inj (found.symm.trans ((committers inBlock _ _).trans found'))
    exact ⟨tree.symm.trans tree', parents.symm.trans parents',
      Except.ok.inj (person.symm.trans person')⟩

/-- The commit with two committers, under another message. -/
def retold (message : String) : Commit := { twiceCommittedRead with message }

/-- It is read from its payload with any message behind it. -/
theorem retold_reads {told : String}
    (reads : readMessage (withMessage twiceCommitted message) = told) :
    parse (withMessage twiceCommitted message) = .ok (retold told) := by
  have header := (parse_withMessage twiceCommitted message).trans twiceCommitted_header
  have pieces := pieces_withMessage twiceCommitted message
  obtain ⟨_, _, authors, committers⟩ := twiceCommittedLines_read
  rw [pieces_twiceCommitted] at pieces
  rw [parse_of_pieces header (by rw [pieces, textsAfter_append, authors]; rfl)
    (by rw [pieces, textsAfter_append, committers]; rfl) people_read.1 people_read.2.1, reads]
  rfl

/-- Two messages of which the second looks like an author change nothing where an author stands in
front of them. -/
theorem messages_alike_retold :
    parse (withMessage twiceCommitted []) = .ok (retold "m\n\n") ∧
      parse (withMessage twiceCommitted authorLine) =
        .ok (retold "m\n\nauthor A <a> 0 +0000") ∧
      (retold "m\n\n").tree = (retold "m\n\nauthor A <a> 0 +0000").tree ∧
      (retold "m\n\n").parents = (retold "m\n\nauthor A <a> 0 +0000").parents ∧
      (retold "m\n\n").committer = (retold "m\n\nauthor A <a> 0 +0000").committer := by
  have message (message : Bytes) : readMessage (withMessage twiceCommitted message) =
      behind (twiceCommittedLines ++ "" :: Utf8.pieces message).tail := by
    rw [readMessage_behind, pieces_withMessage, pieces_twiceCommitted]
  have first : parse (withMessage twiceCommitted []) = .ok (retold "m\n\n") := by
    refine retold_reads ?_
    rw [message]
    decide
  have second : parse (withMessage twiceCommitted authorLine) =
      .ok (retold "m\n\nauthor A <a> 0 +0000") := by
    refine retold_reads ?_
    rw [message, pieces_authorLine]
    decide
  exact ⟨first, second, (messages_alike twiceCommitted).2 _ _ _ _ first second⟩

/-- Lines that name a tree and a committer, and no author. -/
def authorlessLines : List String :=
  ["tree 0000000000000000000000000000000000000000", "committer C <c> 2 +0000"]

/-- The block of these lines. -/
def authorless : Bytes := Utf8.encode ("\n".intercalate authorlessLines)

/-- What the readers of a commit see in the lines without an author, by evaluation. -/
theorem authorlessLines_read :
    (∀ line ∈ authorlessLines, '\n' ∉ line.toList) ∧
      CommitHeader.ofLines (front authorlessLines) = .ok ⟨ObjectId.zero, [], 2⟩ ∧
      textsAfter "author " authorlessLines = [] ∧
      textsAfter "committer " authorlessLines = ["C <c> 2 +0000"] ∧ "" ∉ authorlessLines ∧
      behind (authorlessLines ++ "" :: ["author A <a> 0 +0000"]).tail = "author A <a> 0 +0000" := by
  decide

/-- A message gives the author that the lines in front of it do not name. -/
theorem message_gives_author :
    authorless ≠ [] ∧ "" ∉ Utf8.pieces authorless ∧
      parse (withMessage authorless authorLine) = .ok
        ⟨ObjectId.zero, [], ⟨"A", "a", ⟨0, 0⟩⟩, ⟨"C", "c", ⟨2, 0⟩⟩, "author A <a> 0 +0000"⟩ ∧
      parse (withMessage authorless []) = .error .noAuthor ∧
      ¬ Alike (parse (withMessage authorless authorLine)) (parse (withMessage authorless [])) := by
  obtain ⟨plain, headerRead, authors, committers, filled, message⟩ := authorlessLines_read
  have pieces : Utf8.pieces authorless = authorlessLines :=
    Utf8.pieces_encode (List.cons_ne_nil _ _) plain
  have header : CommitHeader.parse authorless = .ok ⟨ObjectId.zero, [], 2⟩ := by
    rw [CommitHeader.parse_front, pieces, headerRead]
  have whole := pieces_withMessage authorless authorLine
  rw [pieces, pieces_authorLine] at whole
  have refused := (author_from_message header (by rw [pieces, authors])).2
  have given : parse (withMessage authorless authorLine) = .ok
      ⟨ObjectId.zero, [], ⟨"A", "a", ⟨0, 0⟩⟩, ⟨"C", "c", ⟨2, 0⟩⟩, "author A <a> 0 +0000"⟩ := by
    have told : readMessage (withMessage authorless authorLine) = "author A <a> 0 +0000" := by
      rw [readMessage_behind, whole]
      exact message
    have named := authorLine_text
    rw [pieces_authorLine] at named
    rw [parse_of_pieces ((parse_withMessage authorless authorLine).trans header)
      (by rw [whole, textsAfter_append, authors]; exact named)
      (by rw [whole, textsAfter_append, committers]; rfl) people_read.1 people_read.2.2, told]
  refine ⟨fun none => ?_, by rw [pieces]; exact filled, given, refused, ?_⟩
  · rw [none] at pieces
    exact absurd (congrArg List.length pieces) (by decide)
  · rw [given, refused]
    exact id

end Commit

end Ancestry
