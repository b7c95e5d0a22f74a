import Ancestry.Fault
import Ancestry.FileSystem.Basic
import Ancestry.Reference.Name
import Ancestry.Text.Blank

/-!
# Reference files

A reference is a file below the repository's data directory. It holds an identifier, or
the path of another reference that it stands for. A file that is absent or blank is a
reference without a value. Chains of references are followed a few steps only, since
they may form a cycle.
-/

namespace Ancestry.RefFiles

/-- What a reference file holds. -/
inductive Content where
  | symbolic (target : RefName)
  | direct (id : ObjectId)
  deriving DecidableEq

/-- What characters after `ref: ` stand for, which are one line and not empty. -/
def target? (chars : List Char) : Option RefName :=
  match Pieces.afterStart? "ref: ".toList chars with
  | none => none
  | some [] => none
  | some rest => if rest.contains '\n' then none else some ⟨String.ofList rest⟩

/-- The content of a text that is not blank and has no blanks around it. -/
def contentOf (text : String) : Except ObjectId.Fault Content :=
  match target? text.toList with
  | some target => .ok (.symbolic target)
  | none => (ObjectId.parse text).map .direct

/-- What a file holds, if anything. Proofs open it by its equation; to unfold it anywhere else
would read its path. -/
@[irreducible]
def content? (files : FileSystem) (path : Path) : Except Failure (Option Content) :=
  if files.hasFile path then
    match files.readText path with
    | .error fault => .error (.ofFile ("failed to read ref file at " ++ path.text) fault)
    | .ok text =>
      let text := Text.trim text
      if text = "" then .ok none
      else
        match contentOf text with
        | .ok content => .ok (some content)
        | .error fault =>
          .error (.within ("invalid ref content in " ++ path.text) (.ofText fault.message))
  else .ok none

/-- Greatest number of references that one stands for in turn. -/
def depthBound : Nat := 5

/-- The identifier that a file leads to, through at most `most` files. -/
def follow (directory : Path) (files : FileSystem) : (most : Nat) → Path →
    Except Failure (Option ObjectId)
  | 0, path => .error (.ofText ("symbolic ref chain at " ++ path.text ++ " is too deep"))
  | most + 1, path =>
    match content? files path with
    | .error failure => .error failure
    | .ok none => .ok none
    | .ok (some (.direct id)) => .ok (some id)
    | .ok (some (.symbolic target)) => follow directory files most (directory.join target.path)

/-- The value of a reference file. -/
def value (directory : Path) (files : FileSystem) (path : Path) :
    Except Failure (Option ObjectId) :=
  follow directory files (depthBound + 1) path

/-- The file of what is checked out. -/
def headPath (directory : Path) : Path := directory.join "HEAD"

/-- The directory of all references. -/
def refsPath (directory : Path) : Path := directory.join "refs"

/-- The directory of branches. -/
def branchesPath (directory : Path) : Path := (refsPath directory).join "heads"

/-- The identifier that is checked out. -/
def readHead (directory : Path) (files : FileSystem) : Except Failure (Option ObjectId) :=
  value directory files (headPath directory)

/-- The identifier of a branch. -/
def readBranch (directory : Path) (files : FileSystem) (name : BranchName) :
    Except Failure (Option ObjectId) :=
  value directory files ((branchesPath directory).join name.text)

/-- The identifier of a name, looked for in the data directory, among all references and
among branches. -/
def read (directory : Path) (files : FileSystem) (name : String) :
    Except Failure (Option ObjectId) :=
  match [directory, refsPath directory, branchesPath directory].map (·.join name) |>.find?
      files.hasFile with
  | some path => value directory files path
  | none => .ok none

/-- The reference that another one stands for in at most `most` steps. -/
def standsFor (directory : Path) (files : FileSystem) : (most : Nat) → RefName →
    Except Failure RefName
  | 0, _ => .error (.ofText "symbolic ref chain from HEAD is too deep")
  | most + 1, name =>
    match content? files (directory.join name.path) with
    | .error failure => .error failure
    | .ok (some (.symbolic target)) => standsFor directory files most target
    | .ok _ => .ok name

/-- The reference that is checked out: the last one that HEAD leads to. -/
def current (directory : Path) (files : FileSystem) : Except Failure RefName :=
  standsFor directory files depthBound .head

/-- The name of the spare file for which a number is drawn. -/
def spareName (draw : UInt32) : String := FileSystem.spareName "tmp-ref-" draw

/-- The spare file in the directory of a reference file. -/
def sparePath (parent : Path) (draw : UInt32) : Path := parent.join (spareName draw)

/-- Makes or replaces a reference file, and makes its absent directories. The text is written to
a spare file first, for which a number is drawn. -/
def write (files : FileSystem) (path : Path) (text : String) (draw : UInt32 := 0) :
    Except Failure Unit × FileSystem :=
  match path.parent? with
  | none => (.error (.ofText ("invalid ref path " ++ path.text)), files)
  | some parent =>
    match files.createDirectories parent with
    | (.error fault, made) =>
      (.error (.ofFile ("failed to create ref directory " ++ parent.text) fault), made)
    | (.ok (), made) =>
      match made.placeFile (sparePath parent draw) path (Utf8.encode text) with
      | (.ok (), written) => (.ok (), written)
      | (.error (.opening, fault), left) =>
        (.error (.ofFile ("failed to open ref file at " ++ (sparePath parent draw).text) fault),
          left)
      | (.error (.moving, fault), left) =>
        (.error (.ofFile ("failed to rename ref file to " ++ path.text) fault), left)

/-- Gives a reference a value. -/
def update (directory : Path) (files : FileSystem) (name : RefName) (id : ObjectId)
    (draw : UInt32 := 0) : Except Failure Unit × FileSystem :=
  write files (directory.join name.path) (id.toHex ++ "\n") draw

/-- Gives the reference that is checked out a value. -/
def updateHead (directory : Path) (files : FileSystem) (id : ObjectId) (draw : UInt32 := 0) :
    Except Failure Unit × FileSystem :=
  match current directory files with
  | .error failure => (.error failure, files)
  | .ok name => update directory files name id draw

/-- Checks a branch out. -/
def attachHead (directory : Path) (files : FileSystem) (name : BranchName) (draw : UInt32 := 0) :
    Except Failure Unit × FileSystem :=
  write files (headPath directory) ("ref: " ++ (RefName.ofBranch name).path ++ "\n") draw

/-- Checks a commit out without a branch. -/
def detachHead (directory : Path) (files : FileSystem) (id : ObjectId) (draw : UInt32 := 0) :
    Except Failure Unit × FileSystem :=
  write files (headPath directory) (id.toHex ++ "\n") draw

end Ancestry.RefFiles
