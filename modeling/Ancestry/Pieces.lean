/-!
# Cutting lists

A list is cut at its first or its last occurrence of a separator, or at all of them;
the separators belong to no piece.
-/

namespace Ancestry.Pieces

universe u
variable {α : Type u} [DecidableEq α]

/-- What stands before the first occurrence of a separator, and what stands after it
if there is one. -/
def cutFirst (separator : α) : List α → List α × Option (List α)
  | [] => ([], none)
  | x :: rest =>
    if x = separator then ([], some rest)
    else (x :: (cutFirst separator rest).1, (cutFirst separator rest).2)

/-- What stands before the last occurrence of a separator and after it, if there is
one. -/
def cutLast? (separator : α) : List α → Option (List α × List α)
  | [] => none
  | x :: rest =>
    match cutLast? separator rest with
    | some (before, after) => some (x :: before, after)
    | none => if x = separator then some ([], rest) else none

/-- The pieces between all occurrences of a separator; always at least one. -/
def split (separator : α) : List α → List (List α)
  | [] => [[]]
  | x :: rest =>
    if x = separator then [] :: split separator rest
    else
      match split separator rest with
      | [] => [[x]]
      | piece :: pieces => (x :: piece) :: pieces

/-- What follows a given beginning. -/
def afterStart? : (start : List α) → List α → Option (List α)
  | [], rest => some rest
  | _ :: _, [] => none
  | s :: start, x :: rest => if s = x then afterStart? start rest else none

/-- What precedes a given ending. -/
def beforeEnd? (ending : List α) (list : List α) : Option (List α) :=
  (afterStart? ending.reverse list.reverse).map List.reverse

/-- What stands before and after the first occurrence of a word, if there is one. -/
def cutWord? (word : List α) : List α → Option (List α × List α)
  | [] => (afterStart? word []).map fun after => ([], after)
  | x :: rest =>
    match afterStart? word (x :: rest) with
    | some after => some ([], after)
    | none => (cutWord? word rest).map fun (before, after) => (x :: before, after)

end Ancestry.Pieces
