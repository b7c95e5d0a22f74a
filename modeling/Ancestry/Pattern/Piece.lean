import Ancestry.Machine.Size

/-!
# Measured patterns

A pattern is refused when it is nested too deeply or when a machine for it would take
too much room. Nesting counts groups, repetitions, sets in brackets, sequences and
choices. What a machine is built from is kept as an outline.
-/

namespace Ancestry.Pattern

open Machine (Outline)

/-- A pattern with its nesting and its outline. -/
structure Piece where
  pattern : Pattern
  depth : Nat
  outline : Outline CharSet

namespace Piece

/-- Greatest nesting. -/
def depthBound : Nat := 250

/-- No character and no condition. -/
def empty : Piece := ⟨.empty, 0, .empty⟩

/-- A condition. -/
def ofLook (condition : Look) : Piece := ⟨.look condition, 0, .look condition⟩

/-- A set nested so deeply. -/
def ofSet (set : CharSet) (depth : Nat) : Piece := ⟨.char set, depth, .ofSet set⟩

/-- A group, whose ends may be remembered. -/
def group (remembered : Bool) (piece : Piece) : Piece :=
  ⟨piece.pattern, piece.depth + 1, if remembered then .group piece.outline else piece.outline⟩

/-- A repetition. -/
def repeated (piece : Piece) (least : Nat) (most : Option Nat) (eager : Bool) : Piece :=
  ⟨.repeated piece.pattern least most, piece.depth + 1,
    piece.outline.repetition least most eager⟩

/-- Patterns one behind another. -/
def concat : List Pattern → Pattern
  | [] => .empty
  | [pattern] => pattern
  | pattern :: rest => .concat pattern (concat rest)

/-- Patterns to choose from. -/
def either : List Pattern → Pattern
  | [] => .empty
  | [pattern] => pattern
  | pattern :: rest => .either pattern (either rest)

/-- The deepest nesting in some pieces. -/
def deepest (pieces : List Piece) : Nat := pieces.foldl (fun depth piece => max depth piece.depth) 0

/-- Pieces one behind another. -/
def inSequence (pieces : List Piece) : Piece :=
  ⟨concat (pieces.map pattern), deepest pieces, .inSequence (pieces.map outline)⟩

/-- Pieces to choose from. -/
def inChoice (pieces : List Piece) : Piece :=
  ⟨either (pieces.map pattern), deepest pieces, .inChoice (pieces.map outline)⟩

/-- One level more where there are several parts. -/
def nestIf (several : Bool) (piece : Piece) : Piece :=
  if several then { piece with depth := piece.depth + 1 } else piece

/-- Neither nested too deeply nor too large. -/
def isAllowed (piece : Piece) : Bool := piece.depth ≤ depthBound && Machine.fits piece.outline

end Piece

end Ancestry.Pattern
