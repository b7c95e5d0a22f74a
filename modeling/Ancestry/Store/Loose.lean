import Ancestry.Deflate.Zlib
import Ancestry.FileSystem.Basic
import Ancestry.Source

/-!
# Loose objects

Every object is a compressed file, two levels below a directory: the first two digits
of its identifier name a directory, the others the file. A file that exists is never
written again. Any packer will do that unpacking undoes.
-/

namespace Ancestry.LooseStore

/-- The file of an object. -/
def fileOf (directory : Path) (id : ObjectId) : Path :=
  directory.join (id.loosePath.1 ++ "/" ++ id.loosePath.2)

/-- A file is kept under an identifier. -/
def contains (directory : Path) (files : FileSystem) (id : ObjectId) : Bool :=
  files.hasFile (fileOf directory id)

/-- Reads what is kept under an identifier. -/
def read (directory : Path) (files : FileSystem) (id : ObjectId) : Except Fault Object :=
  match files.read (fileOf directory id) with
  | .error .absent => .error (.objectMissing id)
  | .error fault => .error (.file fault)
  | .ok bytes =>
    match Zlib.unpack? bytes with
    | none => .error (.malformed id .packing)
    | some form => Source.ofStored id form

/-- The files of a directory as a source. -/
def source (directory : Path) (files : FileSystem) : Source := ⟨read directory files⟩

/-- The name of the spare file for which a number is drawn. -/
def spareName (draw : UInt32) : String := FileSystem.spareName "tmp-obj-" draw

/-- Keeps a stored form under an identifier, unless there is something. It is packed and written
to a spare file first, for which a number is drawn. -/
def insert (directory : Path) (files : FileSystem) (id : ObjectId) (form : Bytes)
    (draw : UInt32 := 0) (pack : Bytes → Bytes := Zlib.pack) :
    Except Failure Unit × FileSystem :=
  let path := fileOf directory id
  if files.has path then (.ok (), files)
  else
    let group := path.parent?.getD path
    match files.createDirectories group with
    | (.error fault, made) =>
      (.error (.ofFile s!"Unable to create object directory {path.text}" fault), made)
    | (.ok (), made) =>
      let spare := group.join (spareName draw)
      match made.placeFile spare path (pack form) with
      | (.ok (), written) => (.ok (), written)
      | (.error (.opening, fault), left) =>
        (.error (.ofFile s!"Unable to open object file {spare.text}" fault), left)
      | (.error (.moving, fault), left) =>
        (.error (.ofFile s!"Unable to rename object file to {path.text}" fault), left)

/-- Keeps an object under its own identifier, which is given back. -/
def store (directory : Path) (files : FileSystem) (object : Object) (draw : UInt32 := 0)
    (pack : Bytes → Bytes := Zlib.pack) : Except Failure ObjectId × FileSystem :=
  match insert directory files object.id object.frame draw pack with
  | (.ok (), written) => (.ok object.id, written)
  | (.error failure, made) => (.error failure, made)

/-- Keeps objects one after the other, with the numbers that are drawn for them. An object that
cannot be kept does not keep those after it from being kept. -/
def storeAll (directory : Path) (pack : Bytes → Bytes) : FileSystem → List (Object × UInt32) →
    List (Except Failure ObjectId) × FileSystem
  | files, [] => ([], files)
  | files, (object, draw) :: objects =>
    match store directory files object draw pack with
    | (given, made) =>
      match storeAll directory pack made objects with
      | (others, last) => (given :: others, last)

/-- Names of the directories in which identifiers that begin with some digits are
found. -/
def groups (digits : String) : List String :=
  match digits.toList with
  | a :: b :: _ => [String.ofList [a, b]]
  | _ =>
    (List.range 256).map fun value =>
      String.ofList [ObjectId.hexDigit (value / 16), ObjectId.hexDigit (value % 16)]

/-- Identifiers in one of those directories. -/
def inGroup (directory : Path) (files : FileSystem) (digits group : String) :
    Except Fault (List ObjectId) :=
  let path := directory.join group
  if files.hasDirectory path then
    match files.list path with
    | .error fault => .error (.file fault)
    | .ok names =>
      .ok (names.filterMap fun name =>
        if digits.toList.isPrefixOf (group ++ name).toList then
          (ObjectId.parse (group ++ name)).toOption
        else none)
  else .ok []

/-- Identifiers whose digits begin with a text, whose case does not count. They are put in ascending
order here; whoever reads directories may come upon them in any other, so that only the set of
them means anything. -/
def beginningWith (directory : Path) (files : FileSystem) (text : String) :
    Except Fault (List ObjectId) :=
  let digits := text.toLower
  ((groups digits).mapM (inGroup directory files digits)).map fun found =>
    found.flatten.mergeSort fun a b => (compare a b).isLE

end Ancestry.LooseStore
