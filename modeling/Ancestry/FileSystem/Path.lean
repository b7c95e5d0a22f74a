import Ancestry.Pieces
import Ancestry.Text.Utf8

/-!
# Paths

A path is names with slashes between. A leading slash makes it absolute. Empty names
and the name of one dot say nothing, except that a single dot in front of a relative
path is kept when its parent is taken.
-/

namespace Ancestry

/-- A path as it is written. -/
structure Path where
  text : String
  deriving DecidableEq, Repr, Inhabited

namespace Path

/-- Begins at the root. -/
def isAbsolute (path : Path) : Bool := path.text.toList.head? = some '/'

/-- The names between the slashes, empty ones included. -/
def pieces (path : Path) : List String :=
  (Pieces.split '/' path.text.toList).map String.ofList

/-- A path continued by a text. An absolute continuation replaces the path; an empty
one puts a slash behind it. -/
def join (path : Path) (next : String) : Path :=
  if isAbsolute ⟨next⟩ then ⟨next⟩
  else if path.text.isEmpty || path.text.toList.getLast? = some '/' then ⟨path.text ++ next⟩
  else ⟨path.text ++ "/" ++ next⟩

/-- A name that says nothing. -/
def isIdle (name : String) : Bool := name = "" || name = "."

/-- The part of a path that no parent loses, and the rest. -/
def anchor (path : Path) : String × List Char :=
  match path.text.toList with
  | '/' :: rest => ("/", rest)
  | ['.'] => (".", [])
  | '.' :: '/' :: rest => (".", '/' :: rest)
  | chars => ("", chars)

/-- Names from the last one that says something, which comes first. -/
def reversedNames (chars : List Char) : List String :=
  ((Pieces.split '/' chars).map String.ofList).reverse.dropWhile isIdle

/-- The path without its last name; nothing for a root and for the empty path. -/
def parent? (path : Path) : Option Path :=
  match path.anchor with
  | (start, rest) =>
    match reversedNames rest with
    | [] => if start = "." then some ⟨""⟩ else none
    | _ :: names =>
      some ⟨start ++ String.intercalate "/" (names.dropWhile isIdle).reverse⟩

/-- A path and its parents, at most `most` of them, without the root and the empty
path. -/
def ancestors : (most : Nat) → Path → List Path
  | 0, _ => []
  | most + 1, path =>
    match path.parent? with
    | none => []
    | some parent => path :: ancestors most parent

/-- A path and all its parents, longest first, without the root and the empty path. -/
def lineage (path : Path) : List Path := ancestors (path.text.length + 1) path

/-- What a path is compared by: the root or a leading dot first, then name by name. -/
inductive Part where
  | root
  | here
  | above
  | name (text : String)
  deriving DecidableEq, Repr

/-- Rank of a part among parts of different forms. -/
def Part.rank : Part → Nat
  | .root => 0
  | .here => 1
  | .above => 2
  | .name _ => 3

/-- The text of a plain name. -/
def Part.plain : Part → String
  | .name text => text
  | _ => ""

/-- Parts are ordered by form, and plain names among themselves as texts. -/
instance : Ord Part := ⟨compareLex (compareOn Part.rank) (compareOn Part.plain)⟩

instance : Std.TransOrd Part :=
  inferInstanceAs (Std.TransCmp (compareLex (compareOn Part.rank) (compareOn Part.plain)))

instance : Std.LawfulEqOrd Part where
  eq_of_compare := fun {left right} same => by
    have both : (compare left.rank right.rank).then (compare left.plain right.plain) = .eq := same
    rw [Ordering.then_eq_eq] at both
    have ranks : left.rank = right.rank := Std.LawfulEqOrd.eq_of_compare both.1
    have plains : left.plain = right.plain := Std.LawfulEqOrd.eq_of_compare both.2
    cases left <;> cases right <;> simp_all [Part.rank, Part.plain]

/-- The part that a name stands for. -/
def Part.ofName (name : String) : Part := if name = ".." then .above else .name name

/-- The parts of a path. Two paths with the same parts are the same path. -/
def parts (path : Path) : List Part :=
  match path.anchor with
  | (start, rest) =>
    (if start = "/" then [Part.root] else if start = "." then [Part.here] else []) ++
      (((Pieces.split '/' rest).map String.ofList).filter (!isIdle ·)).map Part.ofName

end Path

end Ancestry
