import Ancestry.Fault
import Ancestry.Reference.Name
import Ancestry.Text.Integer
import Ancestry.Unicode.Category

/-!
# Revisions

A revision names a commit: a reference or an identifier, followed by steps to first
parents. `^` is one step, and `~` with a number as many. An argument of a log is a
revision to start from, one to hide, or a range from one to another.
-/

namespace Ancestry

/-- A name for a commit. -/
inductive Revision where
  | name (branch : BranchName)
  | parent (base : Revision)
  | ancestor (base : Revision) (generations : Nat)
  deriving DecidableEq

namespace Revision

instance : Inhabited Revision := ⟨.name .head⟩

/-- The commit that is checked out. -/
def head : Revision := .name .head

/-- The text of a revision. -/
def display : Revision → String
  | .name branch => branch.text
  | .parent base => base.display ++ "^"
  | .ancestor base generations => base.display ++ "~" ++ Text.digits 10 generations

/-- One line that is not empty. -/
def isLine (chars : List Char) : Bool := !chars.isEmpty && !chars.contains '\n'

/-- The revision before a caret at the end. -/
def beforeCaret? (chars : List Char) : Option (List Char) :=
  (Pieces.beforeEnd? ['^'] chars).filter isLine

/-- The revision before a tilde and the digits after it. -/
def beforeTilde? (chars : List Char) : Option (List Char × List Char) :=
  (Pieces.cutLast? '~' chars).filter fun (base, digits) =>
    isLine base && !digits.isEmpty && digits.all Unicode.Category.decimalNumber.contains

/-- The name that an alias stands for. -/
def unaliased (text : String) : String := if text = "@" then "HEAD" else text

/-- A revision without steps. -/
def parseName (text : String) : Except Failure Revision :=
  match BranchName.parse (unaliased text) with
  | .ok branch => .ok (.name branch)
  | .error _ => .error (.fault (.unknownRevision text))

/-- The number of generations, in decimal digits that fit a machine word. -/
def parseGenerations (text : String) (digits : List Char) : Except Failure Nat :=
  (Text.readNat 10 Text.wordMax digits).mapError fun fault =>
    .within ("failed to parse generations in revision: " ++ text) (.ofText fault.message)

/-- Reads a revision with at most `most` steps behind its name. -/
def parseWithin : (most : Nat) → List Char → Except Failure Revision
  | 0, chars => parseName (String.ofList chars)
  | most + 1, chars =>
    match beforeCaret? chars with
    | some base => (parseWithin most base).map .parent
    | none =>
      match beforeTilde? chars with
      | none => parseName (String.ofList chars)
      | some (base, digits) =>
        match parseGenerations (String.ofList chars) digits with
        | .error failure => .error failure
        | .ok generations => (parseWithin most base).map (.ancestor · generations)

/-- Reads a revision. Every step takes at least one character. -/
def parse (text : String) : Except Failure Revision := parseWithin text.length text.toList

end Revision

/-- An argument of a log. -/
inductive RevisionArg where
  | included (revision : Revision)
  | excluded (revision : Revision)
  | range (older newer : Revision)
  deriving DecidableEq

namespace RevisionArg

instance : Inhabited RevisionArg := ⟨.included .head⟩

/-- One side of a range; an absent one is what is checked out. -/
def parseSide (chars : List Char) : Except Failure Revision :=
  if chars.isEmpty then .ok .head else Revision.parse (String.ofList chars)

/-- Reads an argument. A caret in front comes first, then the first two dots. -/
def parse (text : String) : Except Failure RevisionArg :=
  match Pieces.afterStart? ['^'] text.toList with
  | some rest => (Revision.parse (String.ofList rest)).map .excluded
  | none =>
    match Pieces.cutWord? ['.', '.'] text.toList with
    | none => (Revision.parse text).map .included
    | some (older, newer) =>
      match parseSide older with
      | .error failure => .error failure
      | .ok older => (parseSide newer).map (.range older)

end RevisionArg

end Ancestry
