import Ancestry.FileSystem.Fault
import Ancestry.FileSystem.Path
import Ancestry.Text.Integer
import Std.Data.TreeMap

/-!
# Files and directories

A file system maps locations to files and directories. Its root is always a directory.
A path is followed name by name; every name but the last must lead to a directory that
exists, and so must the last when the path ends in a slash. An operation that fails
changes nothing, except that making several directories keeps those that were made, and
that a spare file which cannot be moved to its place is left.
-/

namespace Ancestry

/-- The names from an entry up to the root, innermost first. -/
abbrev Location := List String

/-- What stands at a location. -/
inductive FileEntry where
  | file (bytes : Bytes)
  | directory
  deriving DecidableEq, Repr, Inhabited

/-- Entries other than the root by location. -/
structure FileSystem where
  entries : Std.TreeMap Location FileEntry := ∅

namespace FileSystem

instance : Inhabited FileSystem := ⟨{}⟩

/-- What stands at a location, if anything. -/
def entry? (files : FileSystem) : Location → Option FileEntry
  | [] => some .directory
  | name :: parents => files.entries[name :: parents]?

/-- Puts an entry at a location. -/
def insert (files : FileSystem) (place : Location) (entry : FileEntry) : FileSystem :=
  ⟨files.entries.insert place entry⟩

/-- Takes an entry away from a location. -/
def erase (files : FileSystem) (place : Location) : FileSystem := ⟨files.entries.erase place⟩

/-- Greatest number of bytes of a name. -/
def nameBound : Nat := 255

/-- Greatest number of bytes of a path. -/
def pathBound : Nat := 4095

/-- The location that a name leads to from an existing one. -/
def step (files : FileSystem) (here : Location) (name : String) : Except FileFault Location :=
  if files.entry? here ≠ some .directory then .error .notDirectory
  else if Path.isIdle name then .ok here
  else if name = ".." then .ok here.tail
  else if nameBound < Utf8.size name then .error .nameTooLong
  else .ok (name :: here)

/-- Follows names to an existing entry. -/
def follow (files : FileSystem) : Location → List String → Except FileFault Location
  | here, [] => .ok here
  | here, name :: names =>
    match files.step here name with
    | .error fault => .error fault
    | .ok next => if (files.entry? next).isSome then files.follow next names else .error .absent

/-- What is wrong with the text of a path. -/
def textFault? (path : Path) : Option FileFault :=
  if path.text.toList.contains '\x00' then some .zeroByte
  else if path.text = "" then some .absent
  else if pathBound < Utf8.size path.text then some .nameTooLong
  else none

/-- The existing location that a path names, read from the root. -/
def find (files : FileSystem) (path : Path) : Except FileFault Location :=
  match textFault? path with
  | some fault => .error fault
  | none => files.follow [] path.pieces

/-- What a path names, if anything. -/
def lookup? (files : FileSystem) (path : Path) : Option FileEntry :=
  match files.find path with
  | .ok place => files.entry? place
  | .error _ => none

/-- A path that names something. -/
def has (files : FileSystem) (path : Path) : Bool := (files.lookup? path).isSome

/-- A path that names a file. -/
def hasFile (files : FileSystem) (path : Path) : Bool :=
  match files.lookup? path with
  | some (.file _) => true
  | _ => false

/-- A path that names a directory. -/
def hasDirectory (files : FileSystem) (path : Path) : Bool :=
  match files.lookup? path with
  | some .directory => true
  | _ => false

/-- The bytes of a file. -/
def read (files : FileSystem) (path : Path) : Except FileFault Bytes :=
  match files.find path with
  | .error fault => .error fault
  | .ok place =>
    match files.entry? place with
    | some (.file bytes) => .ok bytes
    | some .directory => .error .isDirectory
    | none => .error .absent

/-- The text of a file. -/
def readText (files : FileSystem) (path : Path) : Except FileFault String :=
  match files.read path with
  | .error fault => .error fault
  | .ok bytes =>
    match Utf8.decode bytes with
    | .ok text => .ok text
    | .error _ => .error .notText

/-- The absolute path of a location. -/
def pathOf (place : Location) : Path := ⟨"/" ++ String.intercalate "/" place.reverse⟩

/-- The absolute path of what a path names, without idle names. -/
def canonical (files : FileSystem) (path : Path) : Except FileFault Path :=
  (files.find path).map pathOf

/-- Names in a directory. -/
def names (files : FileSystem) (directory : Location) : List String :=
  files.entries.keys.filterMap fun place =>
    match place with
    | name :: parents => if parents = directory then some name else none
    | [] => none

/-- Names in the directory of a path. -/
def list (files : FileSystem) (path : Path) : Except FileFault (List String) :=
  (files.find path).map files.names

/-- The location of a new last name, whose directory must exist. -/
def placeFor (files : FileSystem) (before : List String) (last : String) :
    Except FileFault Location :=
  match files.follow [] before with
  | .error fault => .error fault
  | .ok here => files.step here last

/-- Makes a directory, whose parent must exist. -/
def createDirectory (files : FileSystem) (path : Path) : Except FileFault FileSystem :=
  match textFault? path with
  | some fault => .error fault
  | none =>
    match path.pieces.reverse.dropWhile (· = "") with
    | [] => .error .occupied
    | last :: before =>
      match files.placeFor before.reverse last with
      | .error fault => .error fault
      | .ok place =>
        if (files.entry? place).isSome then .error .occupied
        else .ok (files.insert place .directory)

/-- Makes the first of some nested directories, innermost first, and those of its
parents that are absent. -/
def createLineage (files : FileSystem) : List Path → Except FileFault Unit × FileSystem
  | [] => (.ok (), files)
  | path :: parents =>
    match files.createDirectory path with
    | .ok made => (.ok (), made)
    | .error .absent =>
      match files.createLineage parents with
      | (.error fault, made) => (.error fault, made)
      | (.ok (), made) =>
        match made.createDirectory path with
        | .ok all => (.ok (), all)
        | .error fault =>
          if fault = .occupied ∧ made.hasDirectory path then (.ok (), made)
          else (.error fault, made)
    | .error fault =>
      if fault = .occupied ∧ files.hasDirectory path then (.ok (), files)
      else (.error fault, files)

/-- Makes a directory and its absent parents. Those made before a fault stay. -/
def createDirectories (files : FileSystem) (path : Path) : Except FileFault Unit × FileSystem :=
  files.createLineage path.lineage

/-- The location of a path at which a file may stand. Its directory must exist. -/
def filePlace (files : FileSystem) (path : Path) : Except FileFault Location :=
  match textFault? path with
  | some fault => .error fault
  | none =>
    match path.pieces.reverse.dropWhile (· = "") with
    | [] => .error .busy
    | last :: before =>
      match files.placeFor before.reverse last with
      | .error fault => .error fault
      | .ok place =>
        if last = "." ∨ last = ".." then .error .busy
        else if path.pieces.getLast? = some "" then .error .notDirectory
        else if files.entry? place = some .directory then .error .isDirectory else .ok place

/-- Makes a file, or replaces one as a whole. -/
def replaceFile (files : FileSystem) (path : Path) (bytes : Bytes) :
    Except FileFault FileSystem :=
  (files.filePlace path).map fun place => files.insert place (.file bytes)

/-- Moves a file to a path, where it replaces another one. -/
def moveFile (files : FileSystem) (old path : Path) : Except FileFault FileSystem :=
  match files.find old with
  | .error fault => .error fault
  | .ok source =>
    match files.entry? source with
    | some (.file bytes) =>
      (files.filePlace path).map fun place => (files.erase source).insert place (.file bytes)
    | some .directory => .error .isDirectory
    | none => .error .absent

/-- The name of a spare file: a number that is drawn for it stands behind a text. -/
def spareName (front : String) (draw : UInt32) : String := front ++ Text.digits 10 draw.toNat

/-- The steps of putting a file in its place through a spare one. -/
inductive Stage where
  | opening
  | moving
  deriving DecidableEq, Repr

/-- Puts a file in its place through a spare one, which is written first and then moved there,
so that the file is never seen in part. A spare file that cannot be moved stays. -/
def placeFile (files : FileSystem) (spare path : Path) (bytes : Bytes) :
    Except (Stage × FileFault) Unit × FileSystem :=
  match files.replaceFile spare bytes with
  | .error fault => (.error (.opening, fault), files)
  | .ok opened =>
    match opened.moveFile spare path with
    | .error fault => (.error (.moving, fault), opened)
    | .ok moved => (.ok (), moved)

/-- Makes or replaces a file and makes its absent parents. -/
def writeFile (files : FileSystem) (path : Path) (bytes : Bytes) :
    Except FileFault Unit × FileSystem :=
  match files.createDirectories (path.parent?.getD path) with
  | (.error fault, made) => (.error fault, made)
  | (.ok (), made) =>
    match made.replaceFile path bytes with
    | .ok written => (.ok (), written)
    | .error fault => (.error fault, made)

/-- Removes what a path names, with all that stands in it. -/
def remove (files : FileSystem) (path : Path) : Except FileFault FileSystem :=
  (files.find path).map fun place =>
    ⟨files.entries.filter fun other _ => !place.isSuffixOf other⟩

end FileSystem

end Ancestry
