import Ancestry.FileSystem.Path
import Ancestry.Source

/-!
# Changes between trees

Two trees are compared name by name, and directories on either side are compared in
turn. What is not a directory is deleted, added or, where identifier or mode differ,
modified. Links to other repositories are left out. Directories of one identifier are
equal and not read.

Changes are kept in the order of their paths. Paths that have the same parts are one
path, written as it was met first.
-/

namespace Ancestry

/-- What happened to an entry. -/
inductive Change where
  | added (new : TreeEntry)
  | deleted (old : TreeEntry)
  | modified (old new : TreeEntry)
  deriving DecidableEq, Inhabited

namespace Change

/-- The change from one entry to another, where either may be absent. -/
def between? : (old new : Option TreeEntry) → Option Change
  | none, some new => some (.added new)
  | some old, none => some (.deleted old)
  | some old, some new => if old = new then none else some (.modified old new)
  | none, none => none

/-- The letter of a change. -/
def letter : Change → Char
  | .added _ => 'A'
  | .deleted _ => 'D'
  | .modified _ _ => 'M'

/-- Identifier before the change; that of no object when there was no entry. -/
def oldId : Change → ObjectId
  | .added _ => .zero
  | .deleted old => old.id
  | .modified old _ => old.id

/-- Identifier after the change; that of no object when there is no entry. -/
def newId : Change → ObjectId
  | .added new => new.id
  | .deleted _ => .zero
  | .modified _ new => new.id

end Change

/-- Changes and their paths by the parts of the path. -/
structure Changes where
  entries : Std.TreeMap (List Path.Part) (Path × Change) := ∅

namespace Changes

instance : Inhabited Changes := ⟨{}⟩

/-- Records a change, in place of an earlier one of the same path. -/
def insert (changes : Changes) (path : Path) (change : Change) : Changes :=
  let written := match changes.entries[path.parts]? with
    | some (earlier, _) => earlier
    | none => path
  ⟨changes.entries.insert path.parts (written, change)⟩

/-- Records what may have changed. -/
def insert? (changes : Changes) (path : Path) : Option Change → Changes
  | none => changes
  | some change => changes.insert path change

/-- The changes in the order of their paths. -/
def toList (changes : Changes) : List (Path × Change) := changes.entries.values

/-- How two directories below a path are compared, given by their identifiers; none
stands for an empty directory. -/
abbrev Comparison := (old new : Option ObjectId) → Path → Changes → Except Fault Changes

/-- The identifier of an entry that is a directory. -/
def directoryId? (entry : Option TreeEntry) : Option ObjectId :=
  (entry.filter (·.mode.isTree)).map (·.id)

/-- An entry that is no directory. -/
def leaf? (entry : Option TreeEntry) : Option TreeEntry := entry.filter (!·.mode.isTree)

/-- Compares entries with those of the same names in `other`. -/
def compareOld (compare : Comparison) (other : TreeEntries) (above : Path) :
    List (String × TreeEntry) → Changes → Except Fault Changes
  | [], changes => .ok changes
  | (name, entry) :: rest, changes =>
    if other[name]? = some entry then compareOld compare other above rest changes
    else
      let path := above.join name
      match compare (directoryId? (some entry)) (directoryId? other[name]?) path changes with
      | .error fault => .error fault
      | .ok changes =>
        compareOld compare other above rest
          (changes.insert? path (Change.between? (leaf? (some entry)) (leaf? other[name]?)))

/-- Records entries whose names are not among those of `other`. -/
def compareNew (compare : Comparison) (other : TreeEntries) (above : Path) :
    List (String × TreeEntry) → Changes → Except Fault Changes
  | [], changes => .ok changes
  | (name, entry) :: rest, changes =>
    if other.contains name then compareNew compare other above rest changes
    else
      let path := above.join name
      match compare none (directoryId? (some entry)) path changes with
      | .error fault => .error fault
      | .ok changes =>
        compareNew compare other above rest
          (changes.insert? path (Change.between? none (leaf? (some entry))))

/-- Entries of a directory without links to other repositories. -/
def listing (source : Source) : Option ObjectId → Except Fault TreeEntries
  | none => .ok ∅
  | some id => (source.entries id).map (·.filter fun _ entry => !entry.mode.isGitlink)

/-- Compares two directories whose nesting is at most `most` deep. -/
def compareWithin (source : Source) : (most : Nat) → Comparison
  | most, old, new, above, changes =>
    if old = new then .ok changes
    else
      match listing source old with
      | .error fault => .error fault
      | .ok oldEntries =>
        match listing source new with
        | .error fault => .error fault
        | .ok newEntries =>
          match most with
          | 0 => .ok changes
          | most + 1 =>
            match compareOld (compareWithin source most) newEntries above oldEntries.toList
                changes with
            | .error fault => .error fault
            | .ok changes =>
              compareNew (compareWithin source most) oldEntries above newEntries.toList changes

/-- The changes between two trees; none stands for the empty tree. Directories nest at
most as deep as there are identifiers on both sides. -/
def between (source : Source) (old : Option ObjectId) (new : ObjectId) :
    Except Fault (List (Path × Change)) :=
  (compareWithin source (2 * ObjectId.total) old (some new) ⟨""⟩ {}).map toList

end Changes

end Ancestry
