import Ancestry.Pattern.Reader
import Ancestry.Unicode.Lookup

/-!
# Reading patterns: escapes and bracketed sets

A backslash gives a sign its plain meaning and letters a special one. Brackets hold
characters, ranges, named sets and further brackets. What stands side by side is
united; intersection, difference and symmetric difference apply to what stands on their
left and right, one after another.
-/

namespace Ancestry.Pattern

/-- What a sign or an escape stands for. -/
inductive Atom where
  | literal (literal : Literal)
  | look (look : Look)
  | set (members : CharSet)
  deriving DecidableEq, Repr

/-- Signs that have a meaning of their own somewhere in a pattern. -/
def signs : List Char := "\\.+*?()|[]\x7b\x7d^$#&-~".toList

/-- A character that a backslash leaves as it is: a sign, or any character of ASCII that
is neither a letter, a digit nor an angle bracket. -/
def isEscapable (c : Char) : Bool :=
  signs.contains c || (c.toNat < 0x80 && !c.isAlphanum && c != '<' && c != '>')

/-- Names of sets within ASCII. -/
def asciiSets : List (String × List CharRange) :=
  [("alnum", [⟨0x30, 0x39⟩, ⟨0x41, 0x5A⟩, ⟨0x61, 0x7A⟩]), ("alpha", [⟨0x41, 0x5A⟩, ⟨0x61, 0x7A⟩]),
    ("ascii", [⟨0, 0x7F⟩]), ("blank", [⟨0x09, 0x09⟩, ⟨0x20, 0x20⟩]),
    ("cntrl", [⟨0, 0x1F⟩, ⟨0x7F, 0x7F⟩]), ("digit", [⟨0x30, 0x39⟩]), ("graph", [⟨0x21, 0x7E⟩]),
    ("lower", [⟨0x61, 0x7A⟩]), ("print", [⟨0x20, 0x7E⟩]),
    ("punct", [⟨0x21, 0x2F⟩, ⟨0x3A, 0x40⟩, ⟨0x5B, 0x60⟩, ⟨0x7B, 0x7E⟩]),
    ("space", [⟨0x09, 0x0D⟩, ⟨0x20, 0x20⟩]), ("upper", [⟨0x41, 0x5A⟩]),
    ("word", [⟨0x30, 0x39⟩, ⟨0x41, 0x5A⟩, ⟨0x5F, 0x5F⟩, ⟨0x61, 0x7A⟩]),
    ("xdigit", [⟨0x30, 0x39⟩, ⟨0x41, 0x46⟩, ⟨0x61, 0x66⟩])]

/-- A set in brackets while it is read: what has been united since the last operation,
from how many items and how deeply nested, and the operation with its left side. -/
structure Bracket where
  negated : Bool := false
  left : Option ((CharSet → CharSet → CharSet) × CharSet × Nat) := none
  united : CharSet := .empty
  items : Nat := 0
  depth : Nat := 0

namespace Bracket

/-- Unites a further item. -/
def add (bracket : Bracket) (set : CharSet) (depth : Nat) : Bracket :=
  { bracket with
    united := bracket.united.union set
    items := bracket.items + 1
    depth := max bracket.depth depth }

/-- The set so far and how deeply it is nested. The sides of an operation are taken
with their case variants. -/
def value (bracket : Bracket) (options : Options) : CharSet × Nat :=
  let depth := if bracket.items ≤ 1 then bracket.depth else bracket.depth + 1
  match bracket.left with
  | none => (bracket.united, depth)
  | some (operation, left, leftDepth) =>
    (operation (options.foldCase left) (options.foldCase bracket.united), max leftDepth depth + 1)

/-- Makes the set so far the left side of an operation. -/
def operate (bracket : Bracket) (options : Options)
    (operation : CharSet → CharSet → CharSet) : Bracket :=
  let (set, depth) := bracket.value options
  { negated := bracket.negated, left := some (operation, set, depth) }

end Bracket

namespace Reader

/-- The value of an option, or failure. -/
def given {α : Type} : Option α → Reader α
  | some value => return value
  | none => failure

/-- A character by number, behind the letter that says how many digits it has. -/
def numbered (letter : Char) : Reader Literal := do
  advanceSettled
  if (← current) = '\x7b' then do
    advanceSettled
    let value ← hexUntilBrace ((← chars).length + 1) 0 0
    return ⟨← charOf value, false⟩
  else do
    let count := if letter = 'x' then 2 else if letter = 'u' then 4 else 8
    let value ← hexDigits count 0
    return ⟨← charOf value, letter = 'x'⟩

/-- A set by the name between braces, and whether its complement is meant: a name and
its value may be joined by a sign of inequality. -/
def propertySet? (name : List Char) : Option (Bool × CharSet) :=
  let valued := fun (unequal : Bool) (sides : List Char × List Char) =>
    (Unicode.valued? (String.ofList sides.1) (String.ofList sides.2)).map (unequal, ·)
  match Pieces.cutWord? ['!', '='] name with
  | some sides => valued true sides
  | none =>
    match Pieces.cutWord? [':'] name with
    | some sides => valued false sides
    | none =>
      match Pieces.cutWord? ['='] name with
      | some sides => valued false sides
      | none => (Unicode.named? (String.ofList name)).map (false, ·)

/-- A set by name, behind its letter. Of a capital letter and a sign of inequality each
asks for the complement. -/
def property (negated : Bool) : Reader CharSet := do
  advanceSettled
  let c ← current
  let name ←
    if c = '\x7b' then do
      advanceSettled
      textUntilBrace ((← chars).length + 1)
    else do
      require (c != '\\')
      advanceSettled
      pure [c]
  let options ← options
  require options.unicode
  let (unequal, set) ← given (propertySet? name)
  given (options.foldAndNegate? (negated != unequal) set)

/-- A set by its letter; a capital letter stands for the complement. -/
def lettered (letter : Char) : Reader CharSet := do
  advance
  let options ← options
  let set :=
    match letter.toLower with
    | 'd' => options.digits
    | 's' => options.blanks
    | _ => options.wordKind.set
  given (options.negate? letter.isUpper set)

/-- A character of the names of conditions on words. -/
def isEdgeNameChar (c : Char) : Bool := c.isAlpha || c = '-'

/-- The name of a condition in front and what follows it. -/
def splitEdgeName (options : Options) : (most : Nat) → List Char → List Char × List Char
  | 0, chars => ([], chars)
  | _ + 1, [] => ([], [])
  | most + 1, c :: rest =>
    if isEdgeNameChar c then
      let (name, after) := splitEdgeName options most (settled options rest)
      (c :: name, after)
    else ([], c :: rest)

/-- The condition that a name in braces says. -/
def edgeNamed? (kind : WordKind) (name : List Char) : Option Look :=
  [("start".toList, Look.wordStart kind), ("end".toList, .wordEnd kind),
    ("start-half".toList, .noWordBefore kind), ("end-half".toList, .noWordAfter kind)].lookup name

/-- The condition of a letter b: an edge of a word, or what a name in braces says.
Braces that begin with something else are read later. -/
def wordEdge : Reader Look := do
  let options ← options
  let plain := Look.wordEdge options.wordKind
  match ← chars with
  | '\x7b' :: rest =>
    match settled options rest with
    | [] => failure
    | c :: inside =>
      if isEdgeNameChar c then do
        let (name, after) := splitEdgeName options (inside.length + 1) (c :: inside)
        continueWith after
        expect '\x7d'
        given (edgeNamed? options.wordKind name)
      else return plain
  | _ => return plain

/-- What an escape stands for. -/
def escape : Reader Atom := do
  advance
  let c ← current
  if c.isDigit then failure
  else if c = 'x' ∨ c = 'u' ∨ c = 'U' then return .literal (← numbered c)
  else if c = 'p' ∨ c = 'P' then return .set (← property (c = 'P'))
  else if ['d', 's', 'w', 'D', 'S', 'W'].contains c then return .set (← lettered c)
  else do
    advance
    let kind := (← options).wordKind
    if isEscapable c then return .literal ⟨c, false⟩
    else
      match c with
      | 'a' => return .literal ⟨'\x07', false⟩
      | 'f' => return .literal ⟨'\x0c', false⟩
      | 't' => return .literal ⟨'\t', false⟩
      | 'n' => return .literal ⟨'\n', false⟩
      | 'r' => return .literal ⟨'\r', false⟩
      | 'v' => return .literal ⟨'\x0b', false⟩
      | 'A' => return .look .textStart
      | 'z' => return .look .textEnd
      | 'b' => return .look (← wordEdge)
      | 'B' => return .look (.noWordEdge kind)
      | '<' => return .look (.wordStart kind)
      | '>' => return .look (.wordEnd kind)
      | _ => failure

/-- An escape or a character as it is. -/
def member : Reader Atom := do
  let c ← current
  if c = '\\' then escape
  else do
    advance
    return .literal ⟨c, false⟩

/-- A set within ASCII by name, with its own brackets, and what follows it. -/
def asciiSet? (chars : List Char) : Option ((Bool × CharSet) × List Char) :=
  match chars with
  | '[' :: ':' :: rest =>
    let (negated, rest) := match rest with
      | '^' :: rest => (true, rest)
      | _ => (false, rest)
    match Pieces.cutFirst ':' rest with
    | (name, some (']' :: after)) =>
      (asciiSets.lookup (String.ofList name)).map fun ranges => ((negated, ⟨ranges⟩), after)
    | _ => none
  | _ => none

/-- The character behind the next one. In loose text blanks are left out, and one sign
that begins a comment; if only those are left, the first of them. -/
def second? (options : Options) (chars : List Char) : Option Char :=
  let rest := chars.tail
  if options.loose then
    match rest.dropWhile Text.isBlank with
    | '#' :: more => (more.dropWhile Text.isBlank).head? <|> rest.head?
    | c :: _ => some c
    | [] => rest.head?
  else rest.head?

/-- A single member of a set. -/
def memberSet (atom : Atom) : Reader CharSet := do
  match atom with
  | .literal literal => return .single (← given ((← options).member? literal))
  | .set members => return members
  | .look _ => failure

/-- A member of a set or a range between two characters. -/
def range : Reader CharSet := do
  let first ← member
  settle
  let c ← current
  let behind := second? (← options) (← chars)
  if c ≠ '-' ∨ behind = some ']' ∨ behind = some '-' then memberSet first
  else do
    advanceSettled
    let last ← member
    match first, last with
    | .literal first, .literal last => do
      let options ← options
      let low ← given (options.member? first)
      let high ← given (options.member? last)
      require (low ≤ high)
      return .interval low.toNat high.toNat
    | _, _ => failure

/-- Hyphens in front of a set's members are members, and so is a closing bracket in
their place. -/
def leading : (most : Nat) → Bracket → Reader Bracket
  | 0, _ => failure
  | most + 1, bracket => do
    let c ← current
    if c = '-' then do
      advanceSettled
      leading most (bracket.add (.single '-') 0)
    else if c = ']' ∧ bracket.items = 0 then do
      advanceSettled
      return bracket.add (.single ']') 0
    else return bracket

/-- What opens a set in brackets. -/
def openBracket : Reader Bracket := do
  advanceSettled
  let negated ← takes "^"
  settle
  leading ((← chars).length + 1) { negated }

/-- The members of a set up to its closing bracket: the set, and how deeply it is
nested. -/
def bracketItems : (most : Nat) → Bracket → Reader (CharSet × Nat)
  | 0, _ => failure
  | most + 1, bracket => do
    settle
    let options ← options
    let c ← current
    if c = '[' then
      match asciiSet? (← chars) with
      | some ((negated, set), after) => do
        continueWith after
        let set ← given (options.foldAndNegate? negated set)
        bracketItems most (bracket.add set 0)
      | none => do
        let inner ← openBracket
        let (set, depth) ← bracketItems most inner
        bracketItems most (bracket.add set depth)
    else if c = ']' then do
      advance
      let (set, depth) := bracket.value options
      return (← given (options.foldAndNegate? bracket.negated set), depth + 1)
    else if ← takes "&&" then bracketItems most (bracket.operate options CharSet.inter)
    else if ← takes "--" then bracketItems most (bracket.operate options CharSet.difference)
    else if ← takes "~~" then bracketItems most (bracket.operate options CharSet.symmetric)
    else do
      let set ← range
      bracketItems most (bracket.add set 0)

/-- A set in brackets. -/
def bracket : Reader (CharSet × Nat) := do
  let start ← openBracket
  bracketItems ((← chars).length + 1) start

end Reader

end Ancestry.Pattern
