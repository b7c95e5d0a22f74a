import Ancestry.Proofs.Reference.Moving
import Ancestry.Proofs.Reference.Tidy

/-!
# Checking a branch out

The line that checks a branch out is trimmed when it is read. A branch name holds no blank
character that has a meaning elsewhere, but it may hold others, such as a no-break space. So the
branch that is checked out is the one that was asked for exactly when its name ends in no blank
character.
-/

namespace Ancestry.RefFiles

open FileSystem

variable {directory path : Path} {files made after : FileSystem} {name : BranchName}
  {first next last : RefName} {value : Option ObjectId} {links : Nat} {place : Location}
  {base : List String} {given : Except Failure Unit} {draw : UInt32}

/-- The file of a branch is that of its reference. -/
theorem branch_reference (directory : Path) (name : BranchName) :
    (branchesPath directory).join name.text = directory.join (RefName.ofBranch name).path := by
  have isHeads : Path.IsName "heads" := ⟨by decide, by decide, by decide, by decide⟩
  have relative : Path.isAbsolute ⟨name.text⟩ = false :=
    decide_eq_false (BranchName.isValid_iff.mp name.valid).begins.2
  by_cases filled : directory.text = ""
  · obtain rfl : directory = ⟨""⟩ := congrArg Path.mk filled
    have branches : branchesPath ⟨""⟩ = Path.below "refs" "heads" := by decide
    rw [branches, Path.join_below "refs" isHeads relative, Path.join,
      if_neg (by simp [relative_ofBranch]), if_pos (by decide), Path.below, RefName.ofBranch,
      RefName.branches, String.empty_append, ← String.append_assoc, ← String.append_assoc]
    rfl
  · obtain ⟨stem, joined, _⟩ := Path.exists_stem filled
    rw [join_branch joined, joined _ (relative_ofBranch name)]
    rfl

/-- A path that is read from a file ends in no blank character. -/
theorem Points.ends (points : Points files path next) :
    ∀ last ∈ next.path.toList.getLast?, Text.isBlank last = false := by
  obtain ⟨text, _, spelled⟩ := points.spelled
  have filled : next.path.toList ≠ [] := fun nothing =>
    points.filled (String.toList_eq_nil_iff.mp nothing)
  have chars : Text.trimChars text.toList = "ref: ".toList ++ next.path.toList := by
    rw [← String.toList_append, ← spelled, Text.trim, String.toList_ofList]
  have ends := Text.getLast?_trimChars text.toList
  rwa [chars, List.getLast?_append_of_ne_nil _ filled] at ends

/-- A reference that HEAD stands for is HEAD, or ends in no blank character. -/
theorem Leads.ends (leads : Leads directory files links first last) :
    last = first ∨ ∀ c ∈ last.path.toList.getLast?, Text.isBlank c = false := by
  induction leads with
  | here => exact .inl rfl
  | link points _ inductionHypothesis =>
    rcases inductionHypothesis with rfl | ends
    · exact .inr points.ends
    · exact .inr ends

/-- What checking something out touches is a file in the data directory. -/
theorem place_touched
    (joined : ∀ next, Path.isAbsolute ⟨next⟩ = false →
      (directory.join next).pieces = base ++ Path.pieces ⟨next⟩)
    (touched : Touched (headPath directory) draw given after place) :
    ∃ root entry, after.follow [] base = .ok root ∧ place = entry :: root := by
  have whole : (headPath directory).pieces = base ++ ["HEAD"] := by
    rw [headPath, joined "HEAD" (by decide), show Path.pieces ⟨"HEAD"⟩ = ["HEAD"] by decide]
  rcases touched with ⟨_, found⟩ | ⟨parent, up, placed⟩
  · obtain ⟨_, led⟩ := find_iff.mp found
    rw [whole] at led
    obtain ⟨root, led, onward⟩ := follow_append_iff.mp led
    obtain ⟨same, _⟩ := of_follow (by decide) onward
    exact ⟨root, "HEAD", led, same⟩
  · obtain ⟨root, led, same⟩ := place_beside whole (by decide) up (isName_spareName draw) placed
    exact ⟨root, _, led, same⟩

/-- A branch is found in the directory of branches. -/
theorem place_reference
    (joined : ∀ next, Path.isAbsolute ⟨next⟩ = false →
      (directory.join next).pieces = base ++ Path.pieces ⟨next⟩)
    (found : files.find (directory.join (RefName.ofBranch name).path) = .ok place) :
    ∃ root, files.follow [] base = .ok root ∧ files.entry? root = some .directory ∧
      place = placeOf (branchesPlace root) (Path.pieces ⟨name.text⟩) := by
  obtain ⟨_, led⟩ := find_iff.mp found
  rw [joined _ (relative_ofBranch name)] at led
  obtain ⟨root, led, onward⟩ := follow_append_iff.mp led
  have place := (of_follow (onward_branch name.dotless) onward).1.trans (placeOf_branch root _)
  rw [RefName.ofBranch, RefName.branches, pieces_branch] at onward
  obtain ⟨_, stepped, _⟩ := follow_cons_iff.mp onward
  exact ⟨root, led, (of_step stepped).1, place⟩

/-- The content of a file is the same among the same directories, when the same stands where it is
found in either. -/
theorem content?_among (same : SameDirectories made after) (closed : Closed made)
    (closedAfter : Closed after)
    (kept : ∀ place, made.find path = .ok place ∨ after.find path = .ok place →
      after.entry? place = made.entry? place) : content? after path = content? made path := by
  have stays {place : Location} {bytes : Bytes} (found : made.find path = .ok place)
      (stands : made.entry? place = some (.file bytes)) : after.find path = .ok place :=
    find_of_filePlace (same.filePlace (filePlace_there closed found stands))
      (by rw [kept place (.inl found), stands]; rfl)
  by_cases present : made.hasFile path = true
  · obtain ⟨place, bytes, found, stands⟩ := hasFile_iff.mp present
    have foundAfter := stays found stands
    have standsAfter := (kept place (.inl found)).trans stands
    have presentAfter : after.hasFile path = true :=
      hasFile_iff.mpr ⟨place, bytes, foundAfter, standsAfter⟩
    have read : after.readText path = made.readText path := by
      rw [readText, FileSystem.read, foundAfter, readText, FileSystem.read, found]
      simp only [standsAfter, stands]
    rw [content?, content?, presentAfter, present, read]
  · have absent : ¬ after.hasFile path = true := by
      intro presentAfter
      obtain ⟨place, bytes, found, stands⟩ := hasFile_iff.mp presentAfter
      have stood := (kept place (.inr found)).symm.trans stands
      refine present (hasFile_iff.mpr ⟨place, bytes, ?_, stood⟩)
      exact find_of_filePlace (same.symm.filePlace (filePlace_there closedAfter found stands))
        (by rw [stood]; rfl)
    rw [content?, content?, if_neg absent, if_neg present]

/-- Checking something out leaves what the file of a branch stores, whatever stands where the spare
file is put: neither is HEAD in the directory of branches nor is the spare file. -/
theorem Stirs.stores_branch {text : String} (furnished : Furnished files made)
    (stirs : Stirs made (headPath directory) text draw given after) (closed : Closed files)
    (grounded : Grounded files [] directory.pieces)
    (stores : Stores files (directory.join (RefName.ofBranch name).path) value) :
    Stores after (directory.join (RefName.ofBranch name).path) value := by
  obtain ⟨base, joined, form⟩ := Path.exists_pieces_join directory
  have front : Grounded files [] base := by
    rcases form with same | slashed
    · rwa [same] at grounded
    · rw [slashed] at grounded
      exact grounded.front
  have firm : Grounded files [] (directory.join (RefName.ofBranch name).path).pieces := by
    rw [joined _ (relative_ofBranch name)]
    exact front.append (onward_branch name.dotless)
  have before := content?_furnished furnished
    (furnished.covers.hasFile_back closed firm fun _ _ _ => furnished.file_iff.mp)
  have between := furnished.closed closed
  have content := content?_among stirs.directories between (stirs.closed between)
    fun place found => stirs.entries place fun touched => by
      obtain ⟨root, entry, led, same⟩ := place_touched joined touched
      obtain ⟨other, others, there⟩ : ∃ other, after.follow [] base = .ok other ∧
          place = placeOf (branchesPlace other) (Path.pieces ⟨name.text⟩) := by
        rcases found with found | found
        · obtain ⟨other, led, stands, there⟩ := place_reference joined found
          exact ⟨other, stirs.directories.follow led stands, there⟩
        · obtain ⟨other, led, _, there⟩ := place_reference joined found
          exact ⟨other, led, there⟩
      obtain rfl := Except.ok.inj (led.symm.trans others)
      exact ne_branch entry root _ (same.symm.trans there)
  rw [before, content?_stores.mpr stores] at content
  exact content?_stores.mp content

/-- The reference of a branch is shortened to the name of the branch. -/
theorem short_ofBranch (name : BranchName) : (RefName.ofBranch name).short = name.text := by
  have cut : Pieces.afterStart? RefName.branches.toList (RefName.ofBranch name).path.toList =
      some name.text.toList := by
    rw [Pieces.afterStart?_eq_some, RefName.ofBranch, String.toList_append]
  rw [RefName.short, cut]
  exact String.ofList_toList

/-- When a branch whose file stores something was checked out, it is the one that is checked out
exactly when its name ends in no blank character; then it is also what is read.

Proof: the line in HEAD is trimmed when it is read, and leads to what the name begins with up to
blank characters. The file of the branch is none in the data directory, so that it stays as it
was. -/
theorem attached_iff_unblank (closed : Closed files) (grounded : Grounded files [] directory.pieces)
    (stores : Stores files ((branchesPath directory).join name.text) value)
    (attached : attachHead directory files name draw = (.ok (), after)) :
    (RefName.ofBranch name).short = name.text ∧
      readBranch directory after name = .ok value ∧
      (current directory after = .ok (.ofBranch name) ↔
        ∀ last ∈ name.text.toList.getLast?, Text.isBlank last = false) ∧
      ((∀ last ∈ name.text.toList.getLast?, Text.isBlank last = false) →
        readHead directory after = readBranch directory after name) := by
  rw [branch_reference] at stores
  obtain ⟨made, furnished, stirs⟩ := stirs_of_write attached
  have stays := stirs.stores_branch furnished closed grounded stores
  obtain ⟨place, found, stands⟩ := stirs.put rfl
  have points := points_attached found stands
  have read : readBranch directory after name = .ok value := by
    rw [readBranch, branch_reference]
    exact follow_stores stays depthBound
  -- a name without a blank at its end is what HEAD points to
  have whole (ends : ∀ last ∈ name.text.toList.getLast?, Text.isBlank last = false) :
      Points after (directory.join RefName.head.path) (.ofBranch name) := by
    have kept : name.text.toList.rdropWhile Text.isBlank = name.text.toList :=
      List.rdropWhile_eq_self_iff.mpr fun filled => by
        simpa using ends _ (List.getLast?_eq_some_getLast filled)
    rwa [kept, String.ofList_toList] at points
  refine ⟨short_ofBranch name, read, ⟨fun known => ?_, fun ends => ?_⟩, fun ends => ?_⟩
  · obtain ⟨_, _, _, leads, _⟩ := standsFor_iff.mp known
    rcases leads.ends with same | ends
    · have begins := congrArg (fun reference : RefName => reference.path.toList.head?) same
      simp [RefName.ofBranch, RefName.branches, RefName.head] at begins
    · have filled := (BranchName.isValid_iff.mp name.valid).filled
      rwa [RefName.ofBranch, String.toList_append, List.getLast?_append_of_ne_nil _ filled] at ends
  · exact (standsFor_points (whole ends) 4).trans (standsFor_stores stays 3)
  · rw [read]
    exact (follow_points (whole ends) depthBound).trans (follow_stores stays 4)

/-- Files in a directory `/g` in which nothing stands but the file of a branch. -/
def oneBranch (name : BranchName) : FileSystem :=
  (update ⟨"/g"⟩ (FileSystem.insert {} ["g"] .directory) (.ofBranch name) .zero).2

/-- A branch whose name ends in no blank is checked out, and its value is read. -/
theorem attached_iff_unblank_initial :
    (attachHead ⟨"/g"⟩ (oneBranch .initial) .initial).1 = .ok () ∧
      current ⟨"/g"⟩ (attachHead ⟨"/g"⟩ (oneBranch .initial) .initial).2 =
        .ok (.ofBranch .initial) ∧
      readHead ⟨"/g"⟩ (attachHead ⟨"/g"⟩ (oneBranch .initial) .initial).2 = .ok (some .zero) := by
  have updated : update ⟨"/g"⟩ (FileSystem.insert {} ["g"] .directory) (.ofBranch .initial) .zero =
      (.ok (), oneBranch .initial) := Prod.ext (by decide +kernel) rfl
  obtain ⟨_, furnished, stirs⟩ := stirs_of_write updated
  obtain ⟨_, found, stands⟩ := stirs.put rfl
  have stored : Stores (oneBranch .initial) ((branchesPath ⟨"/g"⟩).join BranchName.initial.text)
      (some .zero) := by
    rw [branch_reference]
    exact stores_of_line found stands
  have done : (attachHead ⟨"/g"⟩ (oneBranch .initial) .initial).1 = .ok () := by decide +kernel
  have attached : attachHead ⟨"/g"⟩ (oneBranch .initial) .initial =
      (.ok (), (attachHead ⟨"/g"⟩ (oneBranch .initial) .initial).2) := Prod.ext done rfl
  have ends : BranchName.initial.text.toList.getLast? = some 'r' := by decide +kernel
  have plain : ∀ last ∈ BranchName.initial.text.toList.getLast?, Text.isBlank last = false := by
    rw [ends]
    rintro last ⟨⟩
    decide +kernel
  have onward : ".." ∉ Path.pieces ⟨"/g"⟩ := by decide +kernel
  have closed := stirs.closed (furnished.closed (closed_single "g"))
  obtain ⟨_, read, checked, same⟩ :=
    attached_iff_unblank closed (grounded_of_onward _ [] onward) stored attached
  exact ⟨done, checked.mpr plain, (same plain).trans read⟩

/-- A name that ends in a no-break space. -/
def trailedName : BranchName := ⟨"topic\u00a0", by decide +kernel⟩

/-- A branch whose name ends in a no-break space holds an identifier and is checked out; another
branch is checked out then, which holds none. -/
theorem trailedName_lost :
    (attachHead ⟨"/g"⟩ (oneBranch trailedName) trailedName).1 = .ok () ∧
      readBranch ⟨"/g"⟩ (attachHead ⟨"/g"⟩ (oneBranch trailedName) trailedName).2 trailedName =
        .ok (some .zero) ∧
      current ⟨"/g"⟩ (attachHead ⟨"/g"⟩ (oneBranch trailedName) trailedName).2 =
        .ok ⟨"refs/heads/topic"⟩ ∧
      readHead ⟨"/g"⟩ (attachHead ⟨"/g"⟩ (oneBranch trailedName) trailedName).2 = .ok none := by
  decide +kernel

end Ancestry.RefFiles
