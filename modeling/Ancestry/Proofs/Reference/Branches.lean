import Ancestry.Proofs.Repository.Making

/-!
# Branches as a map

In a repository that was made where there was none, and in which references were updated, checked
out and moved since, giving a branch a value changes what is read for the names of its parts, and
for no other name. Names of the same parts differ in the number of slashes between them only, and
are names of one file.
-/

namespace Ancestry.RefFiles

open FileSystem

/-- The parts of the spare file beside the file of a branch. -/
def spareParts (name : BranchName) (draw : UInt32) : List String :=
  name.parts.dropLast ++ [spareName draw]

namespace Tidy

variable {directory : Path} {stem : String} {root place : Location} {files after : FileSystem}
  {name : BranchName} {id : ObjectId} {draw : UInt32} {given : Except Failure Unit}

/-- What giving a branch a value touches: the place of its parts when that succeeds, and the place
of the spare file. -/
theorem touched_branch (standing : Standing after stem root)
    (touched : Touched (branchPath stem name.text) draw given after place) :
    given = .ok () ∧ place = name.parts.reverse ++ branchesPlace root ∨
      place = (spareParts name draw).reverse ++ branchesPlace root := by
  rcases touched with ⟨done, found⟩ | ⟨parent, up, placed⟩
  · exact .inl ⟨done, (place_branch standing name.dotless found).1⟩
  · obtain ⟨front, last, cut⟩ := List.eq_nil_or_concat (Path.pieces ⟨name.text⟩)
      |>.resolve_left name.pieces_ne_nil
    rw [List.concat_eq_append] at cut
    have named : Path.isIdle last = false := name.ends_in_name last (by simp [cut])
    have whole : (branchPath stem name.text).pieces =
        (Path.pieces ⟨stem⟩ ++ (["refs", "heads"] ++ front)) ++ [last] := by
      rw [branchPath, Path.pieces_below, pieces_branch, cut]
      simp only [List.append_assoc]
    have onward : ".." ∉ ["refs", "heads"] ++ front := by
      intro member
      refine onward_branch name.dotless ?_
      rw [pieces_branch, cut, ← List.append_assoc]
      exact List.mem_append_left _ member
    obtain ⟨here, led, rfl⟩ := place_beside whole named up (isName_spareName draw) placed
    rw [follow_append, standing.led] at led
    obtain ⟨rfl, _⟩ := of_follow onward led
    have parts : name.parts = front.filter (!Path.isIdle ·) ++ [last] := by
      simp [BranchName.parts, cut, named]
    right
    rw [spareParts, parts, List.dropLast_concat, List.reverse_append, placeOf_append]
    rfl

/-- Giving a branch a value, or failing to, leaves a data directory tidy. -/
theorem updated (tidy : Tidy directory stem root files)
    (updated : update directory files (.ofBranch name) id draw = (given, after)) :
    Tidy directory stem root after := by
  have later := tidy.write_branch name.text id draw
  rwa [← tidy.update_branch, updated] at later

/-- A branch is read as before when neither what is written nor the spare file has its parts. -/
theorem read_apart (tidy : Tidy directory stem root files)
    (updated : update directory files (.ofBranch name) id draw = (given, after))
    {other : BranchName} (differs : given = .ok () → other.parts ≠ name.parts)
    (spare : other.parts ≠ spareParts name draw) :
    readBranch directory after other = readBranch directory files other := by
  have later := tidy.updated updated
  rw [tidy.update_branch] at updated
  obtain ⟨made, furnished, stirs⟩ := stirs_of_write updated
  refine tidy.readBranch_same later fun bytes => ?_
  rw [stirs.entries _ fun touched => ?_, furnished.file_iff]
  rcases touched_branch later.standing touched with ⟨done, same⟩ | same
  · exact differs done (List.reverse_injective (List.append_cancel_right same))
  · exact spare (List.reverse_injective (List.append_cancel_right same))

/-- When a branch is given a value and nothing stood where the spare file is put, all branches of
other parts are read as before. -/
theorem read_spared (tidy : Tidy directory stem root files)
    (updated : update directory files (.ofBranch name) id draw = (.ok (), after))
    (spared : Spared files (directory.join (RefName.ofBranch name).path) draw)
    {other : BranchName} (differs : other.parts ≠ name.parts) :
    readBranch directory after other = readBranch directory files other := by
  have later := tidy.updated updated
  obtain ⟨entry, here, wrote⟩ := wrote_of_write spared updated
  have path : directory.join (RefName.ofBranch name).path = branchPath stem name.text :=
    tidy.joined _ (relative_ofBranch _)
  have place := (place_branch later.standing name.dotless (path ▸ wrote.found)).1
  refine tidy.readBranch_same later fun bytes => wrote.file_iff ?_
  rw [place]
  exact fun equal => differs (List.reverse_injective (List.append_cancel_right equal))

/-- A branch that is given a value is read as that value. -/
theorem read_given (tidy : Tidy directory stem root files)
    (updated : update directory files (.ofBranch name) id draw = (.ok (), after)) :
    readBranch directory after name = .ok (some id) := by
  have later := tidy.updated updated
  rw [tidy.update_branch] at updated
  obtain ⟨_, _, stirs⟩ := stirs_of_write updated
  obtain ⟨_, found, stands⟩ := stirs.put rfl
  exact later.readBranch_iff.mpr (stores_of_line found stands)

/-- Branches of the same parts are one file, which is read unless its path is too long. -/
theorem read_alike (tidy : Tidy directory stem root files)
    (read : readBranch directory files name = .ok (some id)) {other : BranchName}
    (same : other.parts = name.parts) :
    readBranch directory files other = .ok (some id) ∨
      readBranch directory files other = .ok none ∧
        pathBound < Utf8.size ((branchesPath directory).join other.text).text := by
  obtain ⟨sound, short, stands⟩ := (tidy.stores_some name).mp (tidy.readBranch_iff.mp read)
  rw [tidy.branch_path]
  by_cases inOrder : textFault? (branchPath stem other.text) = none
  · refine .inl (tidy.readBranch_iff.mpr ((tidy.stores_some other).mpr ⟨inOrder, ?_, ?_⟩))
    · exact short_of_parts same short
    · rw [same]
      exact stands
  · have long := (sound_or_long sound other).resolve_left inOrder
    obtain ⟨value, others⟩ := tidy.exists_stores other.dotless
    cases value with
    | none => exact .inr ⟨tidy.readBranch_iff.mpr others, long⟩
    | some second => exact absurd ((tidy.stores_some other).mp others).1 inOrder

end Tidy

/-- In a repository that was made where there was none, and in which references were updated,
checked out and moved, whatever numbers were drawn for spare files: a branch that is given a value
is read as that value, and so is every name of the same parts whose path is not too long. All other
names are read as before, unless something stood where the spare file is put and it is the name's
file. When a branch cannot be given the value, all names are read as before but that of the spare
file, which may be left behind.

Proof: the data directory stays tidy along the moves, so that every branch is read from the place of
its parts; one more move touches two places among branches at most. -/
theorem branches_keyed_by_parts {repository ready : Repository} {root : Location} {line : String}
    {first draw : UInt32} (fresh : Fresh repository root)
    (made : repository.initialized first = (.ok line, ready)) (moves : List (Move × UInt32))
    (name : BranchName) (id : ObjectId) {given : Except Failure Unit} {after : FileSystem}
    (updated : update ready.dataPath (moved ready.dataPath ready.files moves) (.ofBranch name) id
      draw = (given, after)) :
    (given = .ok () →
      readBranch ready.dataPath after name = .ok (some id) ∧
      ∀ other : BranchName,
        (other.parts ≠ name.parts →
          Spared (moved ready.dataPath ready.files moves)
              (ready.dataPath.join (RefName.ofBranch name).path) draw ∨
            other.parts ≠ spareParts name draw →
          readBranch ready.dataPath after other =
            readBranch ready.dataPath (moved ready.dataPath ready.files moves) other) ∧
        (other.parts = name.parts → readBranch ready.dataPath after other = .ok (some id) ∨
          readBranch ready.dataPath after other = .ok none ∧
            pathBound < Utf8.size ((branchesPath ready.dataPath).join other.text).text)) ∧
    (given ≠ .ok () → ∀ other : BranchName, other.parts ≠ spareParts name draw →
      readBranch ready.dataPath after other =
        readBranch ready.dataPath (moved ready.dataPath ready.files moves) other) := by
  obtain ⟨stem, begun⟩ := fresh.tidy made
  have tidy := begun.moved moves
  constructor
  · rintro rfl
    have read := tidy.read_given updated
    refine ⟨read, fun other => ⟨fun differs => ?_, (tidy.updated updated).read_alike read⟩⟩
    rintro (spared | spare)
    · exact tidy.read_spared updated spared differs
    · exact tidy.read_apart updated (fun _ => differs) spare
  · intro refused other spare
    exact tidy.read_apart updated (fun done => absurd done refused) spare

/-- A directory `/r` with nothing in it. -/
def bareRepository : Repository := ⟨⟨"/r"⟩, FileSystem.insert {} ["r"] .directory⟩

/-- No repository was made there yet. -/
theorem bareRepository_fresh : Fresh bareRepository ["r"] :=
  ⟨by decide +kernel, closed_single "r", by decide +kernel⟩

/-- The repository that is made there. -/
def madeRepository : Repository := (bareRepository.initialized 1).2

/-- Making it succeeds. -/
theorem bareRepository_initialized : bareRepository.initialized 1 =
    (.ok "Initialized empty Git repository in /r\n", madeRepository) := by
  have succeeds : (bareRepository.initialized 1).1 =
      .ok "Initialized empty Git repository in /r\n" := by
    decide +kernel
  rw [madeRepository, ← succeeds, Prod.eta]

/-- A name of two parts. -/
def nestedName : BranchName := ⟨"a/b", by decide +kernel⟩

/-- A name of the same parts with another slash between them. -/
def slashedName : BranchName := ⟨"a//b", by decide +kernel⟩

/-- The files after the first name was checked out and moved. -/
def workedFiles : FileSystem :=
  moved madeRepository.dataPath madeRepository.files
    [(.attach nestedName, 2), (.advance ⟨Vector.replicate 20 1⟩, 3)]

/-- What comes of giving a branch another value then. -/
def zeroed (name : BranchName) : Except Failure Unit × FileSystem :=
  update madeRepository.dataPath workedFiles (.ofBranch name) .zero 4

/-- A branch is read as it was when one of other parts is given a value. -/
theorem branches_keyed_by_parts_initial :
    (zeroed .initial).1 = .ok () ∧
      readBranch madeRepository.dataPath (zeroed .initial).2 .initial = .ok (some .zero) ∧
      readBranch madeRepository.dataPath (zeroed .initial).2 nestedName =
        readBranch madeRepository.dataPath workedFiles nestedName := by
  have succeeds : (zeroed .initial).1 = .ok () := by decide +kernel
  have updated : update madeRepository.dataPath workedFiles (.ofBranch .initial) .zero 4 =
      (.ok (), (zeroed .initial).2) := by
    rw [zeroed] at succeeds ⊢
    rw [← succeeds, Prod.eta]
  obtain ⟨kept, _⟩ := branches_keyed_by_parts bareRepository_fresh bareRepository_initialized
    [(.attach nestedName, 2), (.advance ⟨Vector.replicate 20 1⟩, 3)] .initial .zero updated
  obtain ⟨read, others⟩ := kept rfl
  exact ⟨succeeds, read, (others nestedName).1 (by decide +kernel) (.inl (by decide +kernel))⟩

/-- Two names with different numbers of slashes between their parts name the same file: giving one
of them a value changes what is read for the other. -/
theorem slashedName_changes_nestedName :
    nestedName ≠ slashedName ∧
      readBranch madeRepository.dataPath workedFiles nestedName =
        .ok (some ⟨Vector.replicate 20 1⟩) ∧
      (zeroed slashedName).1 = .ok () ∧
      readBranch madeRepository.dataPath (zeroed slashedName).2 nestedName = .ok (some .zero) := by
  decide +kernel

end Ancestry.RefFiles
