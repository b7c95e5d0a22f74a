import Ancestry.Fault
import Ancestry.Pattern.Reading

/-!
# Counting occurrences

A literal is counted from left to right, each time behind the end of the occurrence
before it. A pattern is counted at every place where it begins to match, so that its
matches may overlap. Bytes that are no text are replaced before anything is counted.
-/

namespace Ancestry

/-- Occurrences of a word from left to right without overlap, in characters of which the
first `skip` belong to an occurrence already counted. -/
def countWord (word : List Char) : (skip : Nat) → List Char → Nat
  | _, [] => 0
  | skip + 1, _ :: rest => countWord word skip rest
  | 0, c :: rest =>
    if word.isPrefixOf (c :: rest) then countWord word (word.length - 1) rest + 1
    else countWord word 0 rest

/-- What is counted: a literal text, or a pattern with the text that it was read from. -/
inductive Needle where
  | literal (text : String)
  | pattern (text : String) (pattern : Pattern)
  deriving DecidableEq, Repr

namespace Needle

/-- A literal, which must not be empty. -/
def ofLiteral (text : String) : Except Fault Needle :=
  if text = "" then .error (.invalidPattern text .empty) else .ok (.literal text)

/-- A pattern, which must not be empty and must be readable. -/
def ofPattern (text : String) : Except Fault Needle :=
  if text = "" then .error (.invalidPattern text .empty)
  else
    match Pattern.read? text with
    | some read => .ok (.pattern text read)
    | none => .error (.invalidPattern text .unreadable)

/-- A pattern or a literal. -/
def ofText (text : String) (isPattern : Bool) : Except Fault Needle :=
  if isPattern then ofPattern text else ofLiteral text

/-- The text as it was given. -/
def text : Needle → String
  | .literal text => text
  | .pattern text _ => text

/-- Counted as a pattern. -/
def isPattern : Needle → Bool
  | .literal _ => false
  | .pattern _ _ => true

/-- Number of occurrences in a text. -/
def countIn (needle : Needle) (chars : List Char) : Nat :=
  match needle with
  | .literal text => countWord text.toList 0 chars
  | .pattern _ read => read.count chars

/-- Number of occurrences in the text of some bytes. -/
def count (needle : Needle) (bytes : Bytes) : Nat :=
  needle.countIn (Utf8.decodeLossy bytes).toList

end Needle

/-- A pattern that is searched for in messages, with the text that it was read from. -/
structure MessageSearch where
  text : String
  pattern : Pattern
  deriving DecidableEq, Repr

namespace MessageSearch

/-- A search in which carets and dollar signs hold at every line. -/
def ofText (text : String) (ignoreCase : Bool) : Except Fault MessageSearch :=
  if text = "" then .error (.invalidPattern text .empty)
  else
    match Pattern.readUnder? { multiLine := true, ignoreCase } text with
    | some pattern => .ok ⟨text, pattern⟩
    | none => .error (.invalidPattern text .unreadable)

/-- The pattern matches somewhere in a message. -/
def isIn (search : MessageSearch) (message : String) : Bool := search.pattern.isIn message.toList

end MessageSearch

end Ancestry
