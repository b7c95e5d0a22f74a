import Ancestry.Proofs.Commits.People
import Ancestry.Proofs.Commits.Reading

/-!
# Header lines

A header line names a tree, a parent or a committer, or says nothing. So the seconds of a
header are those of the last committer that its lines name, and every committer they name is
a person.
-/

namespace Ancestry

namespace PartialHeader

/-- What a line adds to a header. -/
inductive Adds : String → PartialHeader → PartialHeader → Prop where
  | tree {text : String} {id : ObjectId} (header : PartialHeader)
      (read : ObjectId.parse text = .ok id) :
      Adds ("tree " ++ text) header { header with tree := some id }
  | parent {text : String} {id : ObjectId} (header : PartialHeader)
      (read : ObjectId.parse text = .ok id) :
      Adds ("parent " ++ text) header { header with parents := header.parents ++ [id] }
  | committer {text : String} {person : Person} (header : PartialHeader)
      (read : Person.parse text = .ok person) :
      Adds ("committer " ++ text) header { header with time := some person.time.seconds }
  | nothing {line : String} (header : PartialHeader)
      (free : ∀ word ∈ ["tree ", "parent ", "committer "], Commit.textsAfter word [line] = []) :
      Adds line header header

variable {header next : PartialHeader} {line : String} {lines : List String}

/-- A line that begins with a word is the word and the text after it. -/
theorem eq_of_afterStart? {word : String} {rest : List Char}
    (found : Pieces.afterStart? word.toList line.toList = some rest) :
    line = word ++ String.ofList rest := by
  rw [← String.toList_inj, String.toList_append, String.toList_ofList]
  exact Pieces.eq_of_afterStart? found

/-- No text follows a word that a line does not begin with. -/
theorem textsAfter_eq_nil {word : String} :
    Commit.textsAfter word [line] = [] ↔ Pieces.afterStart? word.toList line.toList = none := by
  rw [Commit.textsAfter, List.filterMap_cons]
  cases Pieces.afterStart? word.toList line.toList <;> simp

/-- A text follows its word. -/
theorem afterStart?_same (word text : String) :
    Pieces.afterStart? word.toList (word ++ text).toList = some text.toList := by
  rw [String.toList_append]
  exact Pieces.afterStart?_append word.toList text.toList

/-- A line that begins with the word names what stands behind it. -/
theorem textsAfter_same (word text : String) :
    Commit.textsAfter word [word ++ text] = [text] := by
  rw [Commit.textsAfter, List.filterMap_cons, afterStart?_same]
  simp

/-- No text follows a word where another begins that differs from it. -/
theorem afterStart?_other {word other : String}
    (apart : (word.toList.zip other.toList).any fun pair => pair.1 != pair.2) (text : String) :
    Pieces.afterStart? word.toList (other ++ text).toList = none := by
  rw [String.toList_append]
  exact Pieces.afterStart?_apart apart text.toList

/-- A line that begins with another word names nothing. -/
theorem textsAfter_other {word other : String}
    (apart : (word.toList.zip other.toList).any fun pair => pair.1 != pair.2) (text : String) :
    Commit.textsAfter word [other ++ text] = [] :=
  textsAfter_eq_nil.mpr (afterStart?_other apart text)

/-- A line is taken in when it says something. -/
theorem readLine_iff : header.readLine line = .ok next ↔ Adds line header next := by
  constructor
  · intro read
    unfold readLine at read
    split at read
    · rename_i text found
      rw [eq_of_afterStart? found]
      split at read
      · cases read
        exact .tree header ‹_›
      · cases read
    · rename_i noTree
      split at read
      · rename_i text found
        rw [eq_of_afterStart? found]
        split at read
        · cases read
          exact .parent header ‹_›
        · cases read
      · rename_i noParent
        split at read
        · rename_i text found
          rw [eq_of_afterStart? found]
          split at read
          · cases read
            exact .committer header ‹_›
          · cases read
        · rename_i noCommitter
          cases read
          refine .nothing header fun word member => textsAfter_eq_nil.mpr ?_
          simp only [List.mem_cons, List.not_mem_nil, or_false] at member
          rcases member with rfl | rfl | rfl
          · exact noTree
          · exact noParent
          · exact noCommitter
  · intro added
    cases added with
    | tree _ read =>
      rw [readLine, afterStart?_same]
      simp only [String.ofList_toList, read]
    | parent _ read =>
      rw [readLine, afterStart?_other (by decide), afterStart?_same]
      simp only [String.ofList_toList, read]
    | committer _ read =>
      rw [readLine, afterStart?_other (by decide), afterStart?_other (by decide), afterStart?_same]
      simp only [String.ofList_toList, read]
    | nothing _ free =>
      simp only [List.forall_mem_cons, textsAfter_eq_nil] at free
      rw [readLine, free.1, free.2.1, free.2.2.1]

/-- A line that is taken in sets the seconds to those of the committer that it names. -/
theorem readLine_time (read : header.readLine line = .ok next) :
    ∃ people : List Person,
      (Commit.textsAfter "committer " [line]).map Person.parse = people.map .ok ∧
        next.time = (people.getLast?.map (·.time.seconds)).or header.time := by
  cases readLine_iff.mp read with
  | tree => exact ⟨[], by rw [textsAfter_other (by decide)]; rfl, rfl⟩
  | parent => exact ⟨[], by rw [textsAfter_other (by decide)]; rfl, rfl⟩
  | @committer text person _ named =>
    refine ⟨[person], ?_, rfl⟩
    rw [textsAfter_same, List.map_singleton, named]
    rfl
  | nothing _ free => exact ⟨[], by rw [free "committer " (by simp)]; rfl, rfl⟩

/-- The seconds are those of the last committer that the lines name. -/
theorem foldlM_readLine_time (read : lines.foldlM readLine header = .ok next) :
    ∃ people : List Person,
      (Commit.textsAfter "committer " lines).map Person.parse = people.map .ok ∧
        next.time = (people.getLast?.map (·.time.seconds)).or header.time := by
  induction lines generalizing header with
  | nil =>
    cases read
    exact ⟨[], rfl, rfl⟩
  | cons line lines inductionHypothesis =>
    rw [List.foldlM_cons] at read
    cases first : header.readLine line with
    | error fault =>
      rw [first] at read
      cases read
    | ok middle =>
      rw [first] at read
      obtain ⟨front, frontRead, frontTime⟩ := readLine_time first
      obtain ⟨people, peopleRead, peopleTime⟩ := inductionHypothesis read
      refine ⟨front ++ people, ?_, ?_⟩
      · rw [← List.singleton_append, Commit.textsAfter_append, List.map_append, frontRead,
          peopleRead, List.map_append]
      · rw [peopleTime, frontTime, List.getLast?_append]
        cases people.getLast? <;> rfl

end PartialHeader

/-- The header of some lines has the seconds of the last committer that they name. -/
theorem CommitHeader.ofLines_time {lines : List String} {header : CommitHeader}
    (read : CommitHeader.ofLines lines = .ok header) :
    ∃ people : List Person,
      (Commit.textsAfter "committer " lines).map Person.parse = people.map .ok ∧
        people.getLast?.map (·.time.seconds) = some header.time := by
  unfold ofLines at read
  split at read
  · rename_i final folded
    obtain ⟨people, peopleRead, time⟩ := PartialHeader.foldlM_readLine_time folded
    refine ⟨people, peopleRead, ?_⟩
    unfold PartialHeader.finish at read
    split at read
    · cases read
    · split at read
      · cases read
      · rename_i seconds found
        cases read
        rw [found, Option.or_none] at time
        exact time.symm
  · cases read

end Ancestry
