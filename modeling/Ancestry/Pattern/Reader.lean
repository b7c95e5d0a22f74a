import Ancestry.Pattern.Basic
import Ancestry.Text.Blank
import Ancestry.Unicode.CaseFolding

/-!
# Reading patterns: options and characters

While a pattern is read there are characters left, options that groups open and close,
and names of groups, which must differ. With the option for loose text, blanks and
comments stand for nothing; a comment reaches from a number sign to the end of its line.

A reader takes the state to a value and a new state, or fails. Which rule a failing
pattern breaks is not recorded.
-/

namespace Ancestry.Pattern

/-- Options that change what is read. -/
structure Options where
  ignoreCase : Bool := false
  multiLine : Bool := false
  dotAll : Bool := false
  unicode : Bool := true
  crlf : Bool := false
  loose : Bool := false
  lazy : Bool := false
  deriving DecidableEq, Repr, Inhabited

/-- What is left to read, under which options, and the names met. -/
structure Rest where
  chars : List Char
  options : Options := {}
  names : List String := []
  deriving DecidableEq, Repr

/-- A reader of patterns. -/
abbrev Reader := StateT Rest Option

namespace Reader

/-- Without blanks and comments in front. -/
def skipLoose : (inComment : Bool) → List Char → List Char
  | _, [] => []
  | true, c :: rest => skipLoose (c != '\n') rest
  | false, c :: rest =>
    if Text.isBlank c then skipLoose false rest
    else if c = '#' then skipLoose true rest
    else c :: rest

/-- Characters after those that loose text may skip. -/
def settled (options : Options) (chars : List Char) : List Char :=
  if options.loose then skipLoose false chars else chars

/-- The characters left. -/
def chars : Reader (List Char) := return (← get).chars

/-- The options in force. -/
def options : Reader Options := return (← get).options

/-- Goes on with other characters. -/
def continueWith (chars : List Char) : Reader Unit := modify fun rest => { rest with chars }

/-- The next character, which must be there. -/
def current : Reader Char := do
  match ← chars with
  | c :: _ => return c
  | [] => failure

/-- Passes one character. -/
def advance : Reader Unit := modify fun rest => { rest with chars := rest.chars.tail }

/-- Passes what loose text may skip. -/
def settle : Reader Unit :=
  modify fun rest => { rest with chars := settled rest.options rest.chars }

/-- Passes one character and what loose text may skip behind it. -/
def advanceSettled : Reader Unit := do
  advance
  settle

/-- Passes given characters if they come next. -/
def takes (expected : String) : Reader Bool := do
  match Pieces.afterStart? expected.toList (← chars) with
  | some after => do
    continueWith after
    return true
  | none => return false

/-- Goes on if a condition holds. -/
def require (condition : Bool) : Reader Unit := if condition then return () else failure

/-- Passes one expected character. -/
def expect (expected : Char) : Reader Unit := do
  require ((← current) == expected)
  advance

/-- The digits in front, among which loose text may be skipped, and what follows them. -/
def splitDigits (options : Options) : (most : Nat) → List Char → List Char × List Char
  | 0, chars => ([], chars)
  | _ + 1, [] => ([], [])
  | most + 1, c :: rest =>
    if '0' ≤ c ∧ c ≤ '9' then
      let (digits, after) := splitDigits options most (settled options rest)
      (c :: digits, after)
    else ([], c :: rest)

/-- Without blanks in front, behind each of which loose text may be skipped. -/
def skipBlanks (options : Options) : (most : Nat) → List Char → List Char
  | 0, chars => chars
  | _ + 1, [] => []
  | most + 1, c :: rest =>
    if Text.isBlank c then skipBlanks options most (settled options rest) else c :: rest

/-- Value of decimal digits. -/
def decimalValue (digits : List Char) : Nat :=
  digits.foldl (fun value c => value * 10 + (c.toNat - 48)) 0

/-- A decimal number of at most 32 bits with blanks around it. -/
def decimal : Reader Nat := do
  let all ← chars
  let options ← options
  let (digits, after) := splitDigits options all.length (all.dropWhile Text.isBlank)
  require (!digits.isEmpty && decimalValue digits < Nat.pow 2 32)
  continueWith (skipBlanks options after.length after)
  return decimalValue digits

/-- Value of a hexadecimal digit. -/
def hexValue? (c : Char) : Option Nat :=
  if '0' ≤ c ∧ c ≤ '9' then some (c.toNat - 48)
  else if 'a' ≤ c ∧ c ≤ 'f' then some (c.toNat - 87)
  else if 'A' ≤ c ∧ c ≤ 'F' then some (c.toNat - 55)
  else none

/-- A character given by its number. -/
def charOf (number : Nat) : Reader Char :=
  if number < 0x110000 ∧ ¬(0xD800 ≤ number ∧ number < 0xE000) then return Char.ofNat number
  else failure

/-- Exactly `count` hexadecimal digits, whose value is put behind `value`. -/
def hexDigits : (count value : Nat) → Reader Nat
  | 0, value => return value
  | count + 1, value => do
    match hexValue? (← current) with
    | none => failure
    | some digit => do
      advanceSettled
      hexDigits count (value * 16 + digit)

/-- Hexadecimal digits up to a closing brace, after `read` earlier ones of some value. -/
def hexUntilBrace : (most read value : Nat) → Reader Nat
  | 0, _, _ => failure
  | most + 1, read, value => do
    let c ← current
    if c = '\x7d' then do
      advanceSettled
      require (0 < read)
      return value
    else
      match hexValue? c with
      | none => failure
      | some digit => do
        advanceSettled
        hexUntilBrace most (read + 1) (value * 16 + digit)

/-- Characters up to a closing brace. -/
def textUntilBrace : (most : Nat) → Reader (List Char)
  | 0 => failure
  | most + 1 => do
    let c ← current
    if c = '\x7d' then do
      advance
      return []
    else do
      advanceSettled
      return c :: (← textUntilBrace most)

end Reader

/-- A character as written. -/
structure Literal where
  char : Char
  /-- Written as two hexadecimal digits, which may mean a byte. -/
  isByte : Bool := false
  deriving DecidableEq, Repr

namespace Options

open Unicode

/-- A set with the characters that differ from its own in case only, if case is
ignored. -/
def foldCase (options : Options) (set : CharSet) : CharSet :=
  if options.ignoreCase then
    if options.unicode then CaseFolding.closure set else CaseFolding.asciiClosure set
  else set

/-- The complement of a set, if it is wanted. Where characters are bytes it would hold
bytes that are no characters, and is refused. -/
def negate? (options : Options) (negated : Bool) (set : CharSet) : Option CharSet :=
  if negated then (if options.unicode then some set.complement else none) else some set

/-- A set with its case variants, or the complement of that. -/
def foldAndNegate? (options : Options) (negated : Bool) (set : CharSet) : Option CharSet :=
  options.negate? negated (options.foldCase set)

/-- A character that stands for itself. A byte above ASCII is no character. -/
def char? (options : Options) (literal : Literal) : Option Char :=
  if !options.unicode && literal.isByte && 0x7F < literal.char.toNat then none
  else some literal.char

/-- The characters that a character on its own matches. -/
def literalSet? (options : Options) (literal : Literal) : Option CharSet :=
  (options.char? literal).map fun c =>
    if !options.unicode && 0x7F < c.toNat then .single c else options.foldCase (.single c)

/-- A character as a member of a set, which holds ASCII only where characters are
bytes. -/
def member? (options : Options) (literal : Literal) : Option Char :=
  (options.char? literal).bind fun c =>
    if !options.unicode && 0x7F < c.toNat then none else some c

/-- Which words are meant. -/
def wordKind (options : Options) : WordKind := if options.unicode then .unicode else .ascii

/-- The digits. -/
def digits (options : Options) : CharSet :=
  if options.unicode then Category.decimalNumber else .interval 0x30 0x39

/-- The blanks. -/
def blanks (options : Options) : CharSet :=
  if options.unicode then Property.whiteSpace.set else ⟨[⟨0x09, 0x0D⟩, ⟨0x20, 0x20⟩]⟩

/-- The characters that a dot matches; they are characters only where all are. -/
def dot? (options : Options) : Option CharSet :=
  if !options.unicode then none
  else if options.dotAll then some .all
  else if options.crlf then some ((CharSet.single '\n').union (.single '\r')).complement
  else some (CharSet.single '\n').complement

/-- The condition of a caret. -/
def caret (options : Options) : Look :=
  if options.multiLine then (if options.crlf then .crlfStart else .lineStart) else .textStart

/-- The condition of a dollar sign. -/
def dollar (options : Options) : Look :=
  if options.multiLine then (if options.crlf then .crlfEnd else .lineEnd) else .textEnd

end Options

end Ancestry.Pattern
