import Ancestry.Pieces

/-!
# Blank characters and lines

A character is blank when it has the Unicode property White_Space. Trimming takes
blank characters off both ends of a text.

A line ends at a line feed, which does not belong to it; a carriage return right
before that line feed does not belong to it either. A text that ends in a line
feed has no empty last line.
-/

namespace Ancestry.Text

/-- The characters with the property White_Space. -/
def isBlank (c : Char) : Bool :=
  (0x09 ≤ c.toNat && c.toNat ≤ 0x0D) || c.toNat == 0x20 || c.toNat == 0x85 || c.toNat == 0xA0 ||
  c.toNat == 0x1680 || (0x2000 ≤ c.toNat && c.toNat ≤ 0x200A) || c.toNat == 0x2028 ||
  c.toNat == 0x2029 || c.toNat == 0x202F || c.toNat == 0x205F || c.toNat == 0x3000

/-- The characters of a list without the blank ones at its end. -/
def trimEnd : List Char → List Char
  | [] => []
  | c :: rest =>
    match trimEnd rest with
    | [] => if isBlank c then [] else [c]
    | kept => c :: kept

/-- The characters of a list without the blank ones at its two ends. -/
def trimChars (chars : List Char) : List Char := trimEnd (chars.dropWhile isBlank)

/-- A text without the blank characters at its two ends. -/
def trim (text : String) : String := String.ofList (trimChars text.toList)

/-- A list without one carriage return at its end. -/
def dropReturn : List Char → List Char
  | [] => []
  | ['\r'] => []
  | c :: rest => c :: dropReturn rest

/-- Lines among the pieces between line feeds. The last piece is no line when it
is empty, and keeps its carriage return because no line feed follows. -/
def linesOfPieces : List (List Char) → List (List Char)
  | [] => []
  | [[]] => []
  | [last] => [last]
  | piece :: pieces => dropReturn piece :: linesOfPieces pieces

/-- The lines of a list of characters. -/
def charLines (chars : List Char) : List (List Char) := linesOfPieces (Pieces.split '\n' chars)

/-- The lines of a text. -/
def lines (text : String) : List String := (charLines text.toList).map String.ofList

/-- The first line of a text, empty when there is none. -/
def firstLine (text : String) : String := (lines text).headD ""

end Ancestry.Text
