import Ancestry.Proofs.Commits.Writing
import Ancestry.Proofs.History

/-!
# Commits told by their parents and times

A source of commits that are told by their parents and times answers with them: a commit that
it was made of is read with the parents and the time that it was given, in full as well as by
its header. Its people have no name, its tree is the absent one.
-/

namespace Ancestry

namespace Source

open Calendar (lastSecond)

/-- A person without name and address. -/
def nameless (time : Nat) : Person := ⟨"", "", ⟨time, 0⟩⟩

/-- The person as written in a bare payload, where no blank stands in front of the brackets. -/
def namelessText (time : Nat) : String := "<> " ++ toString (time : Int) ++ " +0000"

variable {commits : List (ObjectId × List ObjectId × Nat)} {id : ObjectId}
  {parents : List ObjectId} {time : Nat}

/-- The text of a person without a name, character by character. -/
theorem toList_namelessText (time : Nat) : (namelessText time).toList =
    ['<', '>', ' '] ++ Nat.toDigits 10 time ++ [' ', '+', '0', '0', '0', '0'] := by
  rw [namelessText, String.toList_append, String.toList_append, Text.toList_toString]
  rfl

/-- The text stands on one line. -/
theorem newline_not_mem_namelessText (time : Nat) : '\n' ∉ (namelessText time).toList := by
  have digits : '\n' ∉ Nat.toDigits 10 time := by
    rw [← Text.toList_toString]
    exact Text.not_mem_toString (by decide) (by decide) time
  rw [toList_namelessText]
  simp [digits]

/-- The text is read as the person, up to the last second of the calendar. -/
theorem parse_namelessText (early : (time : Int) ≤ lastSecond) :
    Person.parse (namelessText time) = .ok (nameless time) := by
  obtain ⟨least, most⟩ := Calendar.instant_bounds
  have digits : Text.readInt64Chars (Nat.toDigits 10 time) = .ok (time : Int) := by
    rw [← Text.toList_toString]
    exact Text.readInt64Chars_toString (by omega) (by omega)
  have unspaced : ' ' ∉ Nat.toDigits 10 time := by
    rw [← Text.toList_toString]
    exact Text.not_mem_toString (by decide) (by decide) time
  have zone : Calendar.Reading.offset? ['+', '0', '0', '0', '0'] = some 0 := by decide
  refine Person.parse_iff.mpr ⟨['<', '>'], Nat.toDigits 10 time, ['+', '0', '0', '0', '0'], ?_,
    unspaced, by decide, digits, by rfl, zone, ?_, early⟩
  · rw [toList_namelessText]
    simp
  · change _ ≤ (time : Int)
    omega

/-- Lines with a line feed behind each stand in front of the others. -/
theorem toList_intercalate_append (lines : List String) {more : List String} (some : more ≠ []) :
    ("\n".intercalate (lines ++ more)).toList =
      lines.flatMap (fun line => line.toList ++ ['\n']) ++ ("\n".intercalate more).toList := by
  induction lines with
  | nil => rfl
  | cons line lines inductionHypothesis =>
    have filled : lines ++ more ≠ [] := by simp [some]
    rw [List.cons_append, String.intercalate_cons_of_ne_nil filled, String.toList_append,
      String.toList_append, inductionHypothesis, List.flatMap_cons]
    simp

/-- The characters of a bare payload. -/
def bareChars (parents : List ObjectId) (time : Nat) : List Char :=
  ['t', 'r', 'e', 'e', ' '] ++ ObjectId.zero.hexChars ++ ['\n'] ++
    parents.flatMap (fun id => ['p', 'a', 'r', 'e', 'n', 't', ' '] ++ id.hexChars ++ ['\n']) ++
    ['a', 'u', 't', 'h', 'o', 'r', ' ', '<', '>', ' ', '0', ' ', '+', '0', '0', '0', '0', '\n'] ++
    ['c', 'o', 'm', 'm', 'i', 't', 't', 'e', 'r', ' ', '<', '>', ' '] ++ Nat.toDigits 10 time ++
    [' ', '+', '0', '0', '0', '0']

/-- They are those of the header lines of a commit of nameless people. -/
theorem toList_bareLines (parents : List ObjectId) (time : Nat) :
    ("\n".intercalate (Commit.linesOf .zero parents (namelessText 0) (namelessText time))).toList =
      bareChars parents time := by
  rw [Commit.linesOf, toList_intercalate_append _ (List.cons_ne_nil _ _),
    String.intercalate_cons_cons, String.intercalate_singleton]
  simp only [List.flatMap_append, List.flatMap_cons, List.flatMap_nil, List.flatMap_map,
    String.toList_append, ObjectId.toList_toHex, toList_namelessText]
  simp [bareChars]

/-- Each of them takes one byte. -/
theorem bareChars_plain (parents : List ObjectId) (time : Nat) :
    ∀ c ∈ bareChars parents time, c.toNat < 128 := by
  have digits : ∀ c ∈ Nat.toDigits 10 time, c.toNat < 128 := by
    intro c member
    have digit := Nat.isDigit_of_mem_toDigits (by decide) (by decide) member
    exact Nat.lt_of_le_of_lt (Char.isDigit_iff_toNat.mp digit).2 (by decide)
  have hex (id : ObjectId) : ∀ c ∈ id.hexChars, c.toNat < 128 := by
    intro c member
    exact (ObjectId.of_mem_hexChars member).1
  have literal (chars : List Char) (small : chars.all fun c => c.toNat < 128) :
      ∀ c ∈ chars, c.toNat < 128 := by
    intro c member
    simpa using List.all_eq_true.mp small c member
  have parent (id : ObjectId) :
      ∀ c ∈ ['p', 'a', 'r', 'e', 'n', 't', ' '] ++ id.hexChars ++ ['\n'], c.toNat < 128 := by
    simp only [List.forall_mem_append]
    exact ⟨⟨literal _ rfl, hex id⟩, literal _ rfl⟩
  simp only [bareChars, List.forall_mem_append]
  refine ⟨⟨⟨⟨⟨⟨⟨literal _ rfl, hex .zero⟩, literal _ rfl⟩, ?_⟩, literal _ rfl⟩, literal _ rfl⟩,
    digits⟩, literal _ rfl⟩
  intro c member
  obtain ⟨id, _, inside⟩ := List.mem_flatMap.mp member
  exact parent id c inside

/-- A bare payload is the header lines of a commit of nameless people. -/
theorem barePayload_eq (parents : List ObjectId) (time : Nat) :
    barePayload parents time =
      Commit.blockOf .zero parents (namelessText 0) (namelessText time) := by
  have text := toList_bareLines parents time
  have plain := bareChars_plain parents time
  rw [← text] at plain
  rw [Commit.blockOf, Utf8.encode_plain plain, text]
  rfl

/-- The payload of a commit of the source. -/
theorem bare_payload (found : commits.lookup id = some (parents, time)) :
    (bare commits).payloadOf .commit id =
      .ok (Commit.blockOf .zero parents (namelessText 0) (namelessText time)) := by
  simp only [payloadOf, bare, found, if_true, barePayload_eq]

/-- A commit of the source has the parents and the time that it was given. -/
theorem bare_node (found : commits.lookup id = some (parents, time))
    (early : (time : Int) ≤ lastSecond) :
    (bare commits).node id = .ok ⟨id, .zero, parents, time⟩ := by
  have read : (bare commits).header id = .ok ⟨.zero, parents, time⟩ := by
    rw [header, readCommit, bare_payload found]
    simp only [Commit.parse_blockOf (newline_not_mem_namelessText 0)
      (newline_not_mem_namelessText time) (parse_namelessText early)]
    rfl
  rw [node, read]
  rfl

/-- The commits of the source can be read in full. -/
theorem bare_commit (early : ∀ commit ∈ commits, (commit.2.2 : Int) ≤ lastSecond)
    (listed : id ∈ commits.map Prod.fst) : ∃ commit, (bare commits).commit id = .ok commit := by
  obtain ⟨parents, time, found, member⟩ : ∃ parents time,
      commits.lookup id = some (parents, time) ∧ (id, parents, time) ∈ commits := by
    cases found : commits.lookup id with
    | none =>
      obtain ⟨commit, member, rfl⟩ := List.mem_map.mp listed
      exact absurd (List.lookup_eq_none_iff.mp found commit member) (by simp)
    | some told =>
      obtain ⟨before, after, whole, _⟩ := List.lookup_eq_some_iff.mp found
      exact ⟨told.1, told.2, rfl, by simp [whole]⟩
  have first := newline_not_mem_namelessText 0
  have second := newline_not_mem_namelessText time
  have committed := parse_namelessText (early _ member)
  have authored : Person.parse (namelessText 0) = .ok (nameless 0) :=
    parse_namelessText (by decide)
  obtain ⟨pieces, _⟩ := Commit.pieces_blockOf .zero parents first second
  obtain ⟨author, committer⟩ :=
    Commit.textsAfter_linesOf .zero parents (namelessText 0) (namelessText time)
  obtain ⟨whole, read⟩ : ∃ whole, Commit.parse
      (Commit.blockOf .zero parents (namelessText 0) (namelessText time)) = .ok whole :=
    ⟨_, Commit.parse_of_pieces (Commit.parse_blockOf first second committed)
      (by rw [pieces, author]; rfl) (by rw [pieces, committer]; rfl) authored committed⟩
  refine ⟨whole, ?_⟩
  rw [commit, readCommit, bare_payload found]
  simp only [read]
  rfl

end Source

end Ancestry
