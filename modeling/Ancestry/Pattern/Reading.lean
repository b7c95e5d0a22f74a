import Ancestry.Pattern.Bracket
import Ancestry.Pattern.Piece
import Ancestry.Pattern.Starts
import Ancestry.Unicode.Recent

/-!
# Reading patterns

A pattern is branches between bars; a branch is parts side by side; a part is a
character, a set, a condition or a group, and may be repeated. A group may set options
for itself, and options without a group hold up to the end of the group around them.
-/

namespace Ancestry.Pattern

/-- What stands in a branch. Options that are set there are a part that cannot be
repeated. -/
inductive Part where
  | piece (piece : Piece)
  | directive

/-- A part as a piece. -/
def Part.toPiece : Part → Piece
  | .piece content => content
  | .directive => .empty

/-- Branches while they are read, all last ones first. -/
structure Branches where
  parts : List Part := []
  done : List Piece := []

namespace Branches

/-- Puts a part behind the others. -/
def push (branches : Branches) (part : Part) : Branches :=
  { branches with parts := part :: branches.parts }

/-- The branch that is read as a piece. -/
def branch (branches : Branches) : Piece :=
  (Piece.inSequence (branches.parts.reverse.map Part.toPiece)).nestIf (1 < branches.parts.length)

/-- Begins a further branch. -/
def next (branches : Branches) : Branches :=
  { parts := [], done := branches.branch :: branches.done }

/-- All branches as a piece. -/
def finish (branches : Branches) : Piece :=
  (Piece.inChoice (branches.branch :: branches.done).reverse).nestIf (!branches.done.isEmpty)

/-- The last part, which must be there and repeatable, and the branches without it. -/
def pop? (branches : Branches) : Option (Piece × Branches) :=
  match branches.parts with
  | .piece piece :: rest => some (piece, { branches with parts := rest })
  | _ => none

end Branches

/-- What an opening parenthesis begins. -/
inductive Opening where
  | directive (options : Options)
  | group (options : Options) (remembered : Bool)

namespace Reader

open Unicode

/-- A character that may begin the name of a group. -/
def beginsName (c : Char) : Bool := c = '_' || Recent.alphabetic.contains c

/-- A character that may stand in the name of a group. -/
def isInName (c : Char) : Bool :=
  beginsName c || c = '.' || c = '[' || c = ']' || Recent.number.contains c

/-- The name of a group up to its closing bracket. No two groups share a name. -/
def groupName : Reader Unit := do
  match Pieces.cutFirst '>' (← chars) with
  | (c :: name, some after) => do
    require (beginsName c && name.all isInName)
    let name := String.ofList (c :: name)
    require (!(← get).names.contains name)
    modify fun rest => { rest with chars := after, names := name :: rest.names }
  | _ => failure

/-- Options with one of them changed, given by its letter. -/
def changed? (options : Options) (letter : Char) (value : Bool) : Option Options :=
  match letter with
  | 'i' => some { options with ignoreCase := value }
  | 'm' => some { options with multiLine := value }
  | 's' => some { options with dotAll := value }
  | 'U' => some { options with lazy := value }
  | 'u' => some { options with unicode := value }
  | 'R' => some { options with crlf := value }
  | 'x' => some { options with loose := value }
  | _ => none

/-- Letters of options up to a colon or a closing parenthesis, which is left. Those
behind a hyphen are turned off; no sign comes twice, and a hyphen is not the last. -/
def optionLetters : (most : Nat) → (seen : List Char) → Options → Reader (List Char × Options)
  | 0, _, _ => failure
  | most + 1, seen, options => do
    let c ← current
    if c = ':' ∨ c = ')' then do
      require (seen.head? != some '-')
      return (seen, options)
    else do
      require (!seen.contains c)
      advance
      if c = '-' then optionLetters most (c :: seen) options
      else optionLetters most (c :: seen) (← given (changed? options c (!seen.contains '-')))

/-- An opening parenthesis with what belongs to it. -/
def opening : Reader Opening := do
  advance
  settle
  let options ← options
  if (← takes "?=") || (← takes "?!") || (← takes "?<=") || (← takes "?<!") then failure
  else if (← takes "?P<") || (← takes "?<") then do
    groupName
    return .group options true
  else if ← takes "?" then do
    let (seen, options) ← optionLetters ((← chars).length + 1) [] options
    let stop ← current
    advance
    if stop = ')' then do
      require (!seen.isEmpty)
      return .directive options
    else return .group options false
  else return .group options true

/-- Sets the options in force. -/
def setOptions (options : Options) : Reader Unit := modify fun rest => { rest with options }

/-- What may follow the sign of a repetition: a question mark, which asks for few stretches
where many are taken otherwise, and for many where few are. -/
def eagerness : Reader Bool := do
  let lazy := (← options).lazy
  match ← chars with
  | '?' :: _ => do
    advance
    return lazy
  | _ => return !lazy

/-- The bounds of a repetition in braces, and whether many stretches are preferred. -/
def bounds : Reader (Nat × Option Nat × Bool) := do
  advanceSettled
  let least ← decimal
  let c ← current
  let most ←
    if c = ',' then do
      advanceSettled
      if (← current) = '\x7d' then pure none else some <$> decimal
    else pure (some least)
  require ((← current) == '\x7d')
  advanceSettled
  let eager ← eagerness
  require (most.all (least ≤ ·))
  return (least, most, eager)

/-- A part that is neither a group nor a set in brackets. -/
def single : Reader Piece := do
  let options ← options
  let c ← current
  let literal := fun (literal : Literal) => do
    return Piece.ofSet (← given (options.literalSet? literal)) 0
  if c = '\\' then
    match ← escape with
    | .literal written => literal written
    | .look condition => return .ofLook condition
    | .set members => return .ofSet members 0
  else do
    advance
    if c = '.' then return .ofSet (← given options.dot?) 0
    else if c = '^' then return .ofLook options.caret
    else if c = '$' then return .ofLook options.dollar
    else literal ⟨c, false⟩

/-- The sign of a repetition and its bounds. -/
def repetition? (c : Char) : Option (Nat × Option Nat) :=
  if c = '?' then some (0, some 1)
  else if c = '*' then some (0, none)
  else if c = '+' then some (1, none)
  else none

/-- Branches up to a closing parenthesis, which is left, or to the end. -/
def branches : (most : Nat) → Branches → Reader Piece
  | 0, _ => failure
  | most + 1, done => do
    settle
    match ← chars with
    | [] => return done.finish
    | c :: _ =>
      if c = ')' then return done.finish
      else if c = '|' then do
        advance
        branches most done.next
      else if c = '(' then
        match ← opening with
        | .directive options => do
          setOptions options
          branches most (done.push .directive)
        | .group inside remembered => do
          let outside ← options
          setOptions inside
          let piece ← branches most {}
          expect ')'
          setOptions outside
          branches most (done.push (.piece (piece.group remembered)))
      else if c = '[' then do
        let (set, depth) ← bracket
        branches most (done.push (.piece (.ofSet set depth)))
      else if c = '\x7b' then do
        let (piece, rest) ← given done.pop?
        let (least, bound, eager) ← bounds
        branches most (rest.push (.piece (piece.repeated least bound eager)))
      else
        match repetition? c with
        | some (least, bound) => do
          let (piece, rest) ← given done.pop?
          advance
          let eager ← eagerness
          branches most (rest.push (.piece (piece.repeated least bound eager)))
        | none => do
          let piece ← single
          branches most (done.push (.piece piece))

end Reader

/-- Reads a whole pattern under some options. -/
def readUnder? (options : Options) (text : String) : Option Pattern :=
  match (Reader.branches (text.toList.length + 1) {}).run { chars := text.toList, options } with
  | some (piece, rest) => if rest.chars = [] ∧ piece.isAllowed then some piece.pattern else none
  | none => none

/-- Reads a pattern. -/
def read? (text : String) : Option Pattern := readUnder? {} text

end Ancestry.Pattern
