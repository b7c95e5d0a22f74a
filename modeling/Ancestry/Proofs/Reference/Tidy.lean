import Ancestry.Proofs.FileSystem.Places
import Ancestry.Proofs.Reference.Chains
import Ancestry.Proofs.Reference.Names

/-!
# Files of branches that hold identifiers

The data directory of a repository is tidy when every file of a branch holds the line of an
identifier, and HEAD such a line or the path of a branch. It stays so whatever is updated, checked
out and moved. Every branch is then read as an identifier or as nothing, and the file of a branch
stands where the parts of its name lead.
-/

namespace Ancestry

/-- The names of the directories and of the file in which a branch is kept. -/
def BranchName.parts (name : BranchName) : List String :=
  (Path.pieces ⟨name.text⟩).filter (!Path.isIdle ·)

namespace BranchName

/-- A branch name has a part. -/
theorem pieces_ne_nil (name : BranchName) : Path.pieces ⟨name.text⟩ ≠ [] :=
  fun none => Pieces.split_ne_nil '/' name.text.toList (List.map_eq_nil_iff.mp none)

/-- The last part of a name is the name of a file. -/
theorem ends_in_name (name : BranchName) :
    ∀ last ∈ (Path.pieces ⟨name.text⟩).getLast?, Path.isIdle last = false := by
  intro last member
  rw [Path.pieces, List.getLast?_map] at member
  obtain ⟨chars, inside, rfl⟩ := Option.map_eq_some_iff.mp member
  have named := isValid_iff.mp name.valid
  have filled := Pieces.getLast?_split named.filled named.ends.1 chars inside
  have plain := name.dotless.pieces chars (List.mem_of_getLast? inside)
  have notHere : String.ofList chars ≠ "." := by
    intro here
    refine plain ?_
    rw [← String.toList_ofList (l := chars), here]
    rfl
  simp [Path.isIdle, filled, notHere]

end BranchName

namespace RefFiles

open FileSystem

/-- Where the directory of branches stands. -/
def branchesPlace (root : Location) : Location := "heads" :: "refs" :: root

/-- What HEAD may hold. -/
inductive HeadLine : String → Prop where
  | detached (id : ObjectId) : HeadLine (id.toHex ++ "\n")
  | attached (name : BranchName) : HeadLine ("ref: " ++ (RefName.ofBranch name).path ++ "\n")

/-- A data directory in which branches hold identifiers only, and HEAD one or a branch. -/
structure Tidy (directory : Path) (stem : String) (root : Location) (files : FileSystem) :
    Prop where
  joined : ∀ next, Path.isAbsolute ⟨next⟩ = false → directory.join next = Path.below stem next
  standing : Standing files stem root
  closed : Closed files
  lines : ∀ inner bytes, files.entry? (inner ++ branchesPlace root) = some (.file bytes) →
    ∃ id : ObjectId, bytes = Utf8.encode (id.toHex ++ "\n")
  head : ∀ bytes, files.entry? ("HEAD" :: root) = some (.file bytes) →
    ∃ line, HeadLine line ∧ bytes = Utf8.encode line

variable {directory : Path} {stem text line : String} {root here place : Location}
  {files made after : FileSystem} {name other : BranchName} {id : ObjectId}
  {value : Option ObjectId} {given : Except Failure Unit} {draw : UInt32}

/-- The path of what is kept under a text among branches. -/
def branchPath (stem text : String) : Path := Path.below stem ("refs/heads/" ++ text)

/-- Where HEAD is found. -/
theorem place_head (standing : Standing files stem root)
    (found : files.find (Path.below stem "HEAD") = .ok place) : place = "HEAD" :: root := by
  have led := standing.follow_of_find found
  have pieces : Path.pieces ⟨"HEAD"⟩ = ["HEAD"] := by decide
  rw [pieces] at led
  exact (of_follow (by decide) led).1

/-- The parts of a branch's path below the repository. -/
theorem pieces_branch (text : String) :
    Path.pieces ⟨"refs/heads/" ++ text⟩ = ["refs", "heads"] ++ Path.pieces ⟨text⟩ :=
  Path.pieces_below "refs/heads" text

/-- No part of a text without hidden parts leads up, and none but the empty ones is idle. -/
theorem not_above (dotless : BranchName.Dotless text.toList) :
    ∀ piece ∈ Path.pieces ⟨text⟩, piece ≠ ".." := by
  intro piece member
  obtain ⟨chars, inside, rfl⟩ := List.mem_map.mp member
  intro above
  refine dotless.pieces chars inside ?_
  rw [← String.toList_ofList (l := chars), above]
  rfl

/-- No name on the way to a text without hidden parts among branches leads up. -/
theorem onward_branch (dotless : BranchName.Dotless text.toList) :
    ".." ∉ Path.pieces ⟨"refs/heads/" ++ text⟩ := by
  intro member
  rw [pieces_branch] at member
  rcases List.mem_append.mp member with front | back
  · exact absurd front (by decide)
  · exact not_above dotless _ back rfl

/-- Where the names on the way to a text among branches lead. -/
theorem placeOf_branch (root : Location) (text : String) :
    placeOf root (Path.pieces ⟨"refs/heads/" ++ text⟩) =
      placeOf (branchesPlace root) (Path.pieces ⟨text⟩) := by
  rw [pieces_branch, placeOf_append]
  rfl

/-- Where a text without hidden parts is found among branches. -/
theorem place_branch (standing : Standing files stem root)
    (dotless : BranchName.Dotless text.toList)
    (found : files.find (branchPath stem text) = .ok place) :
    place = placeOf (branchesPlace root) (Path.pieces ⟨text⟩) ∧
      ∀ piece ∈ Path.pieces ⟨text⟩, Utf8.size piece ≤ nameBound := by
  obtain ⟨same, short⟩ := of_follow (onward_branch dotless) (standing.follow_of_find found)
  rw [pieces_branch, List.forall_mem_append] at short
  exact ⟨same.trans (placeOf_branch root text), short.2⟩

/-- The path of a branch is relative, so that it stays below the repository. -/
theorem relative_ofBranch (name : BranchName) :
    Path.isAbsolute ⟨(RefName.ofBranch name).path⟩ = false := by
  simp [Path.isAbsolute, RefName.ofBranch, RefName.branches]

/-- Where the file of a branch is looked for, which is also where it is written. -/
theorem join_branch
    (joined : ∀ next, Path.isAbsolute ⟨next⟩ = false → directory.join next = Path.below stem next)
    (name : BranchName) : (branchesPath directory).join name.text = branchPath stem name.text := by
  have isRefs : Path.IsName "refs" := ⟨by decide, by decide, by decide, by decide⟩
  have isHeads : Path.IsName "heads" := ⟨by decide, by decide, by decide, by decide⟩
  have relative : Path.isAbsolute ⟨name.text⟩ = false :=
    decide_eq_false (BranchName.isValid_iff.mp name.valid).begins.2
  have nested : Path.below stem ("refs" ++ "/" ++ "heads") =
      Path.below (stem ++ "/" ++ "refs") "heads" := by
    simp only [Path.below, String.append_assoc]
  have whole : Path.below (stem ++ "/" ++ "refs") ("heads" ++ "/" ++ name.text) =
      Path.below stem ("refs" ++ "/" ++ "heads" ++ "/" ++ name.text) := by
    simp only [Path.below, String.append_assoc]
  rw [branchesPath, refsPath, joined "refs" (by decide),
    Path.join_below stem isRefs isHeads.relative, nested, Path.join_below _ isHeads relative, whole]
  rfl

namespace Tidy

/-- Whatever is asked for among branches is an identifier or nothing. -/
theorem exists_stores (tidy : Tidy directory stem root files)
    (dotless : BranchName.Dotless text.toList) :
    ∃ value, Stores files (branchPath stem text) value := by
  cases present : files.hasFile (branchPath stem text) with
  | false => exact ⟨none, .inl present⟩
  | true =>
    obtain ⟨place, bytes, found, stands⟩ := hasFile_iff.mp present
    obtain ⟨same, _⟩ := place_branch tidy.standing dotless found
    obtain ⟨id, rfl⟩ := tidy.lines _ bytes (same ▸ stands)
    exact ⟨some id, stores_of_line found stands⟩

/-- The identifier of a branch stands in the place of its name, under a path in order. -/
theorem stores_some (tidy : Tidy directory stem root files) (name : BranchName) :
    Stores files (branchPath stem name.text) (some id) ↔
      textFault? (branchPath stem name.text) = none ∧
      (∀ piece ∈ Path.pieces ⟨name.text⟩, Utf8.size piece ≤ nameBound) ∧
      files.entry? (name.parts.reverse ++ branchesPlace root) =
        some (.file (Utf8.encode (id.toHex ++ "\n"))) := by
  constructor
  · intro stores
    obtain ⟨place, bytes, found, stands⟩ := hasFile_iff.mp stores.1
    obtain ⟨rfl, short⟩ := place_branch tidy.standing name.dotless found
    obtain ⟨first, rfl⟩ := tidy.lines _ bytes stands
    obtain rfl := Option.some.inj (stores.unique (stores_of_line found stands))
    exact ⟨(find_iff.mp found).1, short, stands⟩
  · rintro ⟨sound, short, stands⟩
    have fits : ∀ piece ∈ Path.pieces ⟨"refs/heads/" ++ name.text⟩,
        piece ≠ ".." ∧ Utf8.size piece ≤ nameBound := by
      rw [pieces_branch, List.forall_mem_append]
      exact ⟨by decide, fun piece member => ⟨not_above name.dotless piece member,
        short piece member⟩⟩
    have ends : ∀ last ∈ (Path.pieces ⟨"refs/heads/" ++ name.text⟩).getLast?,
        Path.isIdle last = false := by
      rw [pieces_branch, List.getLast?_append_of_ne_nil _ name.pieces_ne_nil]
      exact name.ends_in_name
    have placed : placeOf root (Path.pieces ⟨"refs/heads/" ++ name.text⟩) =
        name.parts.reverse ++ branchesPlace root := placeOf_branch root name.text
    have led := tidy.closed.follow tidy.standing.stands fits ends (by rw [placed, stands]; rfl)
    rw [placed] at led
    exact stores_of_line (tidy.standing.find_of_follow sound led) stands

/-- The path at which branches are kept and the path of the reference are one. -/
theorem branch_path (tidy : Tidy directory stem root files) (name : BranchName) :
    (branchesPath directory).join name.text = branchPath stem name.text :=
  join_branch tidy.joined name

/-- Every branch is read as what its file stores. -/
theorem readBranch_iff (tidy : Tidy directory stem root files) :
    readBranch directory files name = .ok value ↔
      Stores files (branchPath stem name.text) value := by
  rw [readBranch, tidy.branch_path name]
  obtain ⟨first, stores⟩ := tidy.exists_stores name.dotless
  rw [RefFiles.value, follow_stores stores depthBound]
  exact ⟨fun same => Except.ok.inj same ▸ stores, fun others => by rw [stores.unique others]⟩

/-- A branch is read alike where the same files stand in its place. -/
theorem readBranch_same (tidy : Tidy directory stem root files)
    (later : Tidy directory stem root after)
    (same : ∀ bytes, after.entry? (name.parts.reverse ++ branchesPlace root) = some (.file bytes) ↔
      files.entry? (name.parts.reverse ++ branchesPlace root) = some (.file bytes)) :
    readBranch directory after name = readBranch directory files name := by
  have kept (id : ObjectId) : Stores after (branchPath stem name.text) (some id) ↔
      Stores files (branchPath stem name.text) (some id) := by
    rw [later.stores_some, tidy.stores_some, same]
  obtain ⟨value, stores⟩ := tidy.exists_stores name.dotless
  obtain ⟨second, others⟩ := later.exists_stores name.dotless
  have equal : value = second := by
    cases value with
    | some id => exact ((kept id).mpr stores).unique others
    | none =>
      cases second with
      | none => rfl
      | some id => exact stores.unique ((kept id).mp others)
  rw [tidy.readBranch_iff.mpr stores, later.readBranch_iff.mpr others, equal]

/-- More directories leave a data directory tidy. -/
theorem furnish (tidy : Tidy directory stem root files) (furnished : Furnished files after) :
    Tidy directory stem root after :=
  ⟨tidy.joined, tidy.standing.covered furnished.covers, furnished.closed tidy.closed,
    fun inner bytes stands => tidy.lines inner bytes (furnished.file_iff.mp stands),
    fun bytes stands => tidy.head bytes (furnished.file_iff.mp stands)⟩

/-- A write keeps a data directory tidy when it writes the line of an identifier, or what HEAD may
hold to places that are outside the directory of branches. -/
theorem stirred (tidy : Tidy directory stem root made) {path : Path}
    (stirs : Stirs made path text draw given after) (isLine : HeadLine text)
    (branch : (∃ id : ObjectId, text = id.toHex ++ "\n") ∨
      ∀ place, Touched path draw given after place → ∀ inner, place ≠ inner ++ branchesPlace root) :
    Tidy directory stem root after := by
  refine ⟨tidy.joined, stirs.standing tidy.standing, stirs.closed tidy.closed,
    fun inner bytes stands => ?_, fun bytes stands => ?_⟩
  · rcases branch with ⟨id, rfl⟩ | outside
    · rcases stirs.stood _ bytes stands with rfl | stood
      · exact ⟨id, rfl⟩
      · exact tidy.lines inner bytes stood
    · rw [stirs.entries _ fun touched => outside _ touched inner rfl] at stands
      exact tidy.lines inner bytes stands
  · rcases stirs.stood _ bytes stands with rfl | stood
    · exact ⟨text, isLine, rfl⟩
    · exact tidy.head bytes stood

end Tidy

/-- A file in the data directory stands outside the directory of branches. -/
theorem ne_branch (name : String) (root inner : Location) :
    name :: root ≠ inner ++ branchesPlace root := by
  intro same
  have lengths := congrArg List.length same
  simp only [branchesPlace, List.length_append, List.length_cons] at lengths
  omega

/-- Trimming a line that names a branch takes the blanks off the end of the branch's name. -/
theorem trim_attached (name : BranchName) :
    Text.trim ("ref: " ++ (RefName.ofBranch name).path ++ "\n") = "ref: " ++ ("refs/heads/" ++
      String.ofList (name.text.toList.rdropWhile Text.isBlank)) := by
  have front : Text.trimChars "ref: refs/heads/".toList = "ref: refs/heads/".toList := by decide
  have chars : ("ref: " ++ (RefName.ofBranch name).path ++ "\n").toList =
      "ref: refs/heads/".toList ++ (name.text.toList ++ ['\n']) := by
    simp [RefName.ofBranch, RefName.branches]
  have behind : Text.trimEnd (name.text.toList ++ ['\n']) =
      name.text.toList.rdropWhile Text.isBlank := by
    rw [Text.trimEnd_eq]
    exact List.rdropWhile_concat_pos _ _ _ (by decide)
  rw [Text.trim, chars, Text.trimChars_front front (by decide), behind, ← String.toList_inj]
  simp

/-- What HEAD leads to when it holds the line of a branch. -/
theorem points_attached {path : Path} (found : files.find path = .ok place)
    (stands : files.entry? place =
      some (.file (Utf8.encode ("ref: " ++ (RefName.ofBranch name).path ++ "\n")))) :
    Points files path
      ⟨"refs/heads/" ++ String.ofList (name.text.toList.rdropWhile Text.isBlank)⟩ := by
  obtain ⟨present, read⟩ := readText_of_find found stands
  refine ⟨present, ⟨_, read, trim_attached name⟩, by simp, ?_⟩
  intro newline
  rw [String.toList_append, List.mem_append] at newline
  rcases newline with fixed | inside
  · exact absurd fixed (by decide)
  · rw [String.toList_ofList] at inside
    have kept : '\n' ∈ name.text.toList := (List.rdropWhile_prefix _ _).subset inside
    exact absurd ((BranchName.isValid_iff.mp name.valid).plain _ kept).1 (by decide)

namespace Tidy

/-- HEAD stores something, or leads to what the name of a branch begins with. -/
theorem head_stores_or_points (tidy : Tidy directory stem root files) :
    (∃ value, Stores files (Path.below stem "HEAD") value) ∨
      ∃ text, BranchName.Dotless text.toList ∧
        Points files (Path.below stem "HEAD") ⟨"refs/heads/" ++ text⟩ := by
  cases present : files.hasFile (Path.below stem "HEAD") with
  | false => exact .inl ⟨none, .inl present⟩
  | true =>
    obtain ⟨place, bytes, found, stands⟩ := hasFile_iff.mp present
    obtain rfl := place_head tidy.standing found
    obtain ⟨line, isLine, rfl⟩ := tidy.head bytes stands
    cases isLine with
    | detached id => exact .inl ⟨some id, stores_of_line found stands⟩
    | attached name =>
      refine .inr ⟨_, name.dotless.front ?_, points_attached found stands⟩
      rw [String.toList_ofList]
      exact List.rdropWhile_prefix _ _

/-- HEAD itself is checked out, or what the name of a branch begins with. -/
theorem exists_current (tidy : Tidy directory stem root files) :
    current directory files = .ok .head ∨ ∃ text, BranchName.Dotless text.toList ∧
      current directory files = .ok ⟨"refs/heads/" ++ text⟩ := by
  have head : directory.join RefName.head.path = Path.below stem "HEAD" :=
    tidy.joined "HEAD" (by decide)
  rcases tidy.head_stores_or_points with ⟨value, stores⟩ | ⟨text, dotless, points⟩
  · exact .inl (standsFor_stores (head ▸ stores) 4)
  · obtain ⟨value, stores⟩ := tidy.exists_stores dotless
    have path : directory.join ("refs/heads/" ++ text) = branchPath stem text :=
      tidy.joined _ (by simp [Path.isAbsolute])
    have led : current directory files = _ :=
      (standsFor_points (head ▸ points) 4).trans (standsFor_stores (path ▸ stores) 3)
    exact .inr ⟨text, dotless, led⟩

/-- What writing HEAD touches is a file in the data directory. -/
theorem touched_head (standing : Standing after stem root)
    (touched : Touched (Path.below stem "HEAD") draw given after place) :
    ∃ name, place = name :: root := by
  rcases touched with ⟨_, found⟩ | ⟨parent, up, placed⟩
  · exact ⟨"HEAD", place_head standing found⟩
  · have whole : (Path.below stem "HEAD").pieces = Path.pieces ⟨stem⟩ ++ ["HEAD"] := by
      rw [Path.pieces_below, show Path.pieces ⟨"HEAD"⟩ = ["HEAD"] by decide]
    obtain ⟨here, led, same⟩ :=
      place_beside whole (by decide) up (isName_spareName draw) placed
    obtain rfl := Except.ok.inj (led.symm.trans standing.led)
    exact ⟨_, same⟩

/-- Writing HEAD leaves a data directory tidy. -/
theorem write_head (tidy : Tidy directory stem root files) (isLine : HeadLine line)
    (draw : UInt32) :
    Tidy directory stem root (write files (Path.below stem "HEAD") line draw).2 := by
  obtain ⟨made, furnished, stirs⟩ :=
    stirs_of_write (Prod.eta (write files (Path.below stem "HEAD") line draw)).symm
  have between := tidy.furnish furnished
  refine between.stirred stirs isLine (.inr fun place touched inner => ?_)
  obtain ⟨name, rfl⟩ := touched_head (stirs.standing between.standing) touched
  exact ne_branch name root inner

/-- Writing an identifier among branches leaves a data directory tidy. -/
theorem write_branch (tidy : Tidy directory stem root files) (text : String) (id : ObjectId)
    (draw : UInt32) :
    Tidy directory stem root (write files (branchPath stem text) (id.toHex ++ "\n") draw).2 := by
  obtain ⟨made, furnished, stirs⟩ :=
    stirs_of_write (Prod.eta (write files (branchPath stem text) (id.toHex ++ "\n") draw)).symm
  exact (tidy.furnish furnished).stirred stirs (.detached id) (.inl ⟨id, rfl⟩)

/-- Giving a branch a value writes its file. -/
theorem update_branch (tidy : Tidy directory stem root files) (name : BranchName) (id : ObjectId)
    (draw : UInt32) : update directory files (.ofBranch name) id draw =
      write files (branchPath stem name.text) (id.toHex ++ "\n") draw := by
  have path : directory.join (RefName.ofBranch name).path = branchPath stem name.text :=
    tidy.joined _ (relative_ofBranch _)
  rw [update, path]

end Tidy

/-- What may be done to references: a branch is given a value, a branch or a commit is checked
out, and what is checked out is moved. -/
inductive Move where
  | update (name : BranchName) (id : ObjectId)
  | attach (name : BranchName)
  | detach (id : ObjectId)
  | advance (id : ObjectId)

/-- The answer of a move and the files after it. A number is drawn for its spare file. -/
def Move.apply (directory : Path) (files : FileSystem) (draw : UInt32) :
    Move → Except Failure Unit × FileSystem
  | .update name id => RefFiles.update directory files (.ofBranch name) id draw
  | .attach name => attachHead directory files name draw
  | .detach id => detachHead directory files id draw
  | .advance id => updateHead directory files id draw

/-- The files after some moves with the numbers that are drawn for them, of which any may fail. -/
def moved (directory : Path) (files : FileSystem) (moves : List (Move × UInt32)) : FileSystem :=
  moves.foldl (fun files move => (move.1.apply directory files move.2).2) files

/-- Every move leaves a data directory tidy, whatever number is drawn for it. -/
theorem Tidy.apply (tidy : Tidy directory stem root files) (move : Move) (draw : UInt32) :
    Tidy directory stem root (move.apply directory files draw).2 := by
  have head : headPath directory = Path.below stem "HEAD" := tidy.joined "HEAD" (by decide)
  cases move with
  | update name id =>
    rw [Move.apply, tidy.update_branch]
    exact tidy.write_branch name.text id draw
  | attach name =>
    rw [Move.apply, attachHead, head]
    exact tidy.write_head (.attached name) draw
  | detach id =>
    rw [Move.apply, detachHead, head]
    exact tidy.write_head (.detached id) draw
  | advance id =>
    rw [Move.apply, updateHead]
    rcases tidy.exists_current with known | ⟨text, dotless, known⟩
    · rw [known]
      simp only
      rw [RefFiles.update, tidy.joined RefName.head.path (by decide)]
      exact tidy.write_head (.detached id) draw
    · have path : directory.join ("refs/heads/" ++ text) = branchPath stem text :=
        tidy.joined _ (by simp [Path.isAbsolute])
      rw [known]
      simp only
      rw [RefFiles.update, path]
      exact tidy.write_branch text id draw

/-- So do all moves. -/
theorem Tidy.moved (tidy : Tidy directory stem root files) (moves : List (Move × UInt32)) :
    Tidy directory stem root (RefFiles.moved directory files moves) := by
  induction moves generalizing files with
  | nil => exact tidy
  | cons move moves inductionHypothesis => exact inductionHypothesis (tidy.apply move.1 move.2)

/-- A branch's path is in order where another's is, unless it is too long. -/
theorem sound_or_long (sound : textFault? (branchPath stem name.text) = none)
    (other : BranchName) :
    textFault? (branchPath stem other.text) = none ∨
      pathBound < Utf8.size (branchPath stem other.text).text := by
  have clean : '\x00' ∉ (branchPath stem other.text).text.toList := by
    rw [textFault?] at sound
    split at sound
    · cases sound
    · rename_i clean
      have stemClean : '\x00' ∉ stem.toList := fun member =>
        clean (by simp [branchPath, Path.below, member])
      have otherClean : '\x00' ∉ other.text.toList := fun member =>
        absurd ((BranchName.isValid_iff.mp other.valid).plain _ member).1 (by decide)
      simp [branchPath, Path.below, stemClean, otherClean]
  by_cases short : Utf8.size (branchPath stem other.text).text ≤ pathBound
  · refine .inl ?_
    rw [textFault?, if_neg (by simpa using clean), if_neg (by simp [branchPath, Path.below]),
      if_neg (Nat.not_lt.mpr short)]
  · exact .inr (Nat.not_le.mp short)

/-- The parts of a name are not too long where those of a name of the same parts are not. -/
theorem short_of_parts (same : other.parts = name.parts)
    (short : ∀ piece ∈ Path.pieces ⟨name.text⟩, Utf8.size piece ≤ nameBound) :
    ∀ piece ∈ Path.pieces ⟨other.text⟩, Utf8.size piece ≤ nameBound := by
  intro piece member
  cases idle : Path.isIdle piece with
  | true =>
    rw [Path.isIdle, Bool.or_eq_true, decide_eq_true_eq, decide_eq_true_eq] at idle
    rcases idle with rfl | rfl <;> decide
  | false =>
    have inside : piece ∈ name.parts := by
      rw [← same]
      exact List.mem_filter.mpr ⟨member, by simp [idle]⟩
    exact short piece (List.mem_filter.mp inside).1

end RefFiles

end Ancestry
