import Ancestry.FileSystem.Fault
import Ancestry.Object.Commit
import Ancestry.Object.Tree

/-!
# Faults and failures

A fault is one of the reasons for which reading objects, building filters or walking
ends. A failure is a fault, or a chain of texts that say in which situation something
else went wrong, outermost first.
-/

namespace Ancestry

/-- Why what is kept under an identifier cannot be read. -/
inductive ContentFault where
  | packing
  | frame (fault : FrameFault)
  | tree (fault : TreeFault)
  | commit (fault : CommitFault)
  deriving DecidableEq, Repr

/-- Wording of the faults; of a chain of texts the outermost. -/
def ContentFault.message : ContentFault → String
  | .packing => "<zlib>"
  | .frame fault => fault.message
  | .tree fault => fault.texts.headD ""
  | .commit fault => fault.message

/-- Why a text is no pattern to search for. -/
inductive PatternFault where
  | empty
  | unreadable
  deriving DecidableEq, Repr

/-- Wording of the faults. -/
def PatternFault.message : PatternFault → String
  | .empty => "cannot match on empty string"
  | .unreadable => "<regex>"

/-- Why a store, a filter or a walk cannot answer. -/
inductive Fault where
  | invalidPattern (pattern : String) (fault : PatternFault)
  | objectMissing (id : ObjectId)
  | kindMismatch (id : ObjectId) (expected actual : Kind)
  | malformed (id : ObjectId) (fault : ContentFault)
  | walkStarted
  | unknownRevision (text : String)
  | file (fault : FileFault)
  deriving DecidableEq

/-- Wording of the faults. -/
def Fault.message : Fault → String
  | .invalidPattern pattern fault =>
    s!"invalid pattern {Text.Quoted.encode pattern}: {fault.message}"
  | .objectMissing id => s!"object {id} not found"
  | .kindMismatch id expected actual =>
    s!"object {id} is a {actual.name}, expected a {expected.name}"
  | .malformed id fault => s!"malformed object {id}: {fault.message}"
  | .walkStarted => "cannot configure a walk that has already started"
  | .unknownRevision text => s!"unknown revision {Text.Quoted.encode text}"
  | .file fault => fault.message

/-- A link in a chain of causes. -/
inductive Cause where
  | said (text : String)
  | file (fault : FileFault)
  deriving DecidableEq, Repr

/-- Wording of a cause. -/
def Cause.message : Cause → String
  | .said text => text
  | .file fault => fault.message

/-- Why a command or a reading of references fails. -/
inductive Failure where
  | fault (fault : Fault)
  | chain (outer : Cause) (inner : List Cause)
  deriving DecidableEq

namespace Failure

/-- A failure that one text says. -/
def ofText (text : String) : Failure := .chain (.said text) []

/-- A fault of a file in a situation. -/
def ofFile (situation : String) (reason : FileFault) : Failure :=
  .chain (.said situation) [.file reason]

/-- The causes of a failure, outermost first. -/
def causes : Failure → List Cause
  | .fault (.file reason) => [.file reason]
  | .fault reason => [.said reason.message]
  | .chain outer inner => outer :: inner

/-- A failure in a wider situation. -/
def within (situation : String) (failure : Failure) : Failure :=
  .chain (.said situation) failure.causes

/-- The lines of a text after the first, moved to the right. -/
def indented (margin : String) (text : String) : String :=
  ("\n" ++ margin).intercalate ((Pieces.split '\n' text.toList).map String.ofList)

/-- A cause below a failure, numbered when it is not the only one. -/
def listed (number : Option Nat) (cause : Cause) : String :=
  match number with
  | none => "    " ++ indented "    " cause.message
  | some number =>
    let digits := Text.digits 10 number
    String.ofList (List.replicate (5 - digits.length) ' ') ++ digits ++ ": " ++
      indented "       " cause.message

/-- A failure as a report of several lines. -/
def report (failure : Failure) : String :=
  match failure.causes with
  | [] => "Error: "
  | [outer] => "Error: " ++ outer.message
  | [outer, inner] => "Error: " ++ outer.message ++ "\n\nCaused by:\n" ++ listed none inner
  | outer :: inner =>
    "Error: " ++ outer.message ++ "\n\nCaused by:\n" ++
      "\n".intercalate (inner.zipIdx.map fun (cause, place) => listed (some place) cause)

end Failure

end Ancestry
