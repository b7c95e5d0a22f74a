import Ancestry.Object.Frame
import Ancestry.Object.Person

/-!
# Commits

A commit names a tree and its parents, the people who wrote and committed it, and a
message. The payload has one header line for each of these, an empty line, and the
message.

A walk needs the header alone: the tree, the parents and the committer's seconds, read
line by line up to the first empty line. A later tree or committer line replaces an
earlier one. The full reading takes the header the same way, the people from the first
lines that name them, wherever they stand, and the message from behind the first two
line feeds in a row.
-/

namespace Ancestry

/-- What a walk needs of a commit. -/
structure CommitHeader where
  tree : ObjectId
  parents : List ObjectId
  time : Int
  deriving DecidableEq, Inhabited

/-- A commit with its people and message. -/
structure Commit where
  tree : ObjectId
  parents : List ObjectId
  author : Person
  committer : Person
  message : String
  deriving DecidableEq, Inhabited

/-- Why a payload is no commit. -/
inductive CommitFault where
  | id (fault : ObjectId.Fault)
  | person (fault : PersonFault)
  | noTree
  | noAuthor
  | noCommitter
  deriving DecidableEq, Repr

/-- Wording of the faults. -/
def CommitFault.message : CommitFault → String
  | .id fault => fault.message
  | .person fault => fault.message
  | .noTree => "Invalid commit object: missing tree line"
  | .noAuthor => "Invalid commit object: missing author line"
  | .noCommitter => "Invalid commit object: missing committer line"

/-- What header lines have said so far. -/
structure PartialHeader where
  tree : Option ObjectId := none
  parents : List ObjectId := []
  time : Option Int := none
  deriving DecidableEq

namespace PartialHeader

/-- Takes in one header line. Lines that name neither tree, parent nor committer say
nothing. -/
def readLine (header : PartialHeader) (line : String) : Except CommitFault PartialHeader :=
  match Pieces.afterStart? "tree ".toList line.toList with
  | some text =>
    match ObjectId.parse (String.ofList text) with
    | .ok id => .ok { header with tree := some id }
    | .error fault => .error (.id fault)
  | none =>
    match Pieces.afterStart? "parent ".toList line.toList with
    | some text =>
      match ObjectId.parse (String.ofList text) with
      | .ok id => .ok { header with parents := header.parents ++ [id] }
      | .error fault => .error (.id fault)
    | none =>
      match Pieces.afterStart? "committer ".toList line.toList with
      | some text =>
        match Person.parse (String.ofList text) with
        | .ok person => .ok { header with time := some person.time.seconds }
        | .error fault => .error (.person fault)
      | none => .ok header

/-- Takes in lines up to the first empty one. -/
def readLines (header : PartialHeader) : List Bytes → Except CommitFault PartialHeader
  | [] => .ok header
  | line :: rest =>
    if line = [] then .ok header
    else
      match header.readLine (Utf8.decodeLossy line) with
      | .ok header => header.readLines rest
      | .error fault => .error fault

/-- The header that the lines have made. -/
def finish (header : PartialHeader) : Except CommitFault CommitHeader :=
  match header.tree with
  | none => .error .noTree
  | some tree =>
    match header.time with
    | none => .error .noCommitter
    | some time => .ok ⟨tree, header.parents, time⟩

end PartialHeader

/-- Reads the header of a payload. -/
def CommitHeader.parse (bytes : Bytes) : Except CommitFault CommitHeader :=
  match PartialHeader.readLines {} (Pieces.split 0x0A bytes) with
  | .ok header => header.finish
  | .error fault => .error fault

namespace Commit

/-- A commit whose author committed it. -/
def ofAuthor (tree : ObjectId) (parents : List ObjectId) (author : Person) (message : String) :
    Commit := ⟨tree, parents, author, author, message⟩

/-- The message of a payload: what follows the first two line feeds in a row, or
nothing. -/
def readMessage (bytes : Bytes) : String :=
  match Pieces.cutWord? [0x0A, 0x0A] bytes with
  | some (_, message) => Utf8.decodeLossy message
  | none => ""

/-- What follows a word at the beginning of the first line that begins with it. -/
def lineAfter? (word : String) (lines : List (List Char)) : Option String :=
  (lines.findSome? (Pieces.afterStart? word.toList)).map String.ofList

/-- Reads a payload. -/
def parse (bytes : Bytes) : Except CommitFault Commit :=
  match CommitHeader.parse bytes with
  | .error fault => .error fault
  | .ok header =>
    let text := Utf8.decodeLossy bytes
    let lines := Text.charLines text.toList
    match lineAfter? "author " lines with
    | none => .error .noAuthor
    | some authorText =>
      match lineAfter? "committer " lines with
      | none => .error .noCommitter
      | some committerText =>
        match Person.parse authorText with
        | .error fault => .error (.person fault)
        | .ok author =>
          match Person.parse committerText with
          | .error fault => .error (.person fault)
          | .ok committer =>
            .ok ⟨header.tree, header.parents, author, committer, readMessage (Utf8.encode text)⟩

/-- The header lines of a commit. -/
def headerLines (commit : Commit) : List String :=
  ["tree " ++ commit.tree.toHex] ++ commit.parents.map (fun parent => "parent " ++ parent.toHex) ++
    ["author " ++ commit.author.display, "committer " ++ commit.committer.display]

/-- The payload of a commit. -/
def payload (commit : Commit) : Bytes :=
  Utf8.encode ("\n".intercalate (commit.headerLines ++ ["", commit.message]))

/-- The object of a commit. -/
def toObject (commit : Commit) : Object := ⟨.commit, commit.payload⟩

/-- The first line of the message. -/
def short (commit : Commit) : String := Text.firstLine commit.message

/-- The committer's seconds. -/
def time (commit : Commit) : Int := commit.committer.time.seconds

end Commit

end Ancestry
