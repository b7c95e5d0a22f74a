import Ancestry.Pieces

/-!
# Names of references

A branch has a name, and a reference a path below the directory that holds the
repository's data. The reference of a branch is its name below `refs/heads/`; what HEAD
is called when no branch is checked out is a reference of its own.
-/

namespace Ancestry

/-- A character that no branch name contains: controls, space, and those with a meaning
in revisions and patterns. -/
def isReserved (c : Char) : Bool :=
  c.toNat ≤ 0x20 || ['*', ':', '?', '[', '\\', '~', '^', '\x7f'].contains c

namespace BranchName

/-- Characters that contain a word. -/
def containsWord (word chars : List Char) : Bool := (Pieces.cutWord? word chars).isSome

/-- Characters that begin or end with a slash, or in which a part begins with a dot. -/
def badParts (chars : List Char) : Bool :=
  chars.head? = some '.' || chars.head? = some '/' || chars.getLast? = some '/' ||
    containsWord ['/', '.'] chars

/-- Characters that end like a lock file or contain what revisions give a meaning. -/
def badWords (chars : List Char) : Bool :=
  containsWord ['.', '.'] chars || containsWord ['@', '\x7b'] chars ||
    (Pieces.beforeEnd? ".lock".toList chars).isSome

/-- Characters that name a branch. -/
def isValid (chars : List Char) : Bool :=
  !chars.isEmpty && !badParts chars && !badWords chars && !chars.any isReserved

end BranchName

/-- The name of a branch. -/
structure BranchName where
  text : String
  valid : BranchName.isValid text.toList = true
  deriving DecidableEq

namespace BranchName

/-- Why a text names no branch. -/
inductive Fault where
  | empty
  | invalid (text : String)
  deriving DecidableEq, Repr

/-- Wording of the faults. -/
def Fault.message : Fault → String
  | .empty => "branch name cannot be empty"
  | .invalid text => "invalid branch name: " ++ text

/-- The branch of a name. -/
def parse (text : String) : Except Fault BranchName :=
  if text = "" then .error .empty
  else if valid : isValid text.toList = true then .ok ⟨text, valid⟩
  else .error (.invalid text)

/-- The name under which the commit that is checked out is found. -/
def head : BranchName := ⟨"HEAD", by decide +kernel⟩

/-- The branch of a new repository. -/
def initial : BranchName := ⟨"master", by decide +kernel⟩

instance : Inhabited BranchName := ⟨head⟩

end BranchName

/-- A reference by its path. -/
structure RefName where
  path : String
  deriving DecidableEq, Repr, Inhabited

namespace RefName

/-- The reference that says what is checked out. -/
def head : RefName := ⟨"HEAD"⟩

/-- Where the references of branches are. -/
def branches : String := "refs/heads/"

/-- The reference of a branch. -/
def ofBranch (name : BranchName) : RefName := ⟨branches ++ name.text⟩

/-- The name of the branch, or else the whole path. -/
def short (name : RefName) : String :=
  match Pieces.afterStart? branches.toList name.path.toList with
  | some rest => String.ofList rest
  | none => name.path

/-- No branch is checked out. -/
def isDetached (name : RefName) : Bool := name.path = "HEAD"

end RefName

end Ancestry
