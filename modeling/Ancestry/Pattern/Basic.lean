import Ancestry.Unicode.Property

/-!
# Patterns

A pattern matches stretches of a text. A stretch lies between two places, which are
counted in characters: place zero stands before the first character and the last place
behind the last one. A character of a set takes one place; a condition takes none and
depends only on the characters before and behind its place.
-/

namespace Ancestry

/-- Characters that make up words: all, or those of ASCII. -/
inductive WordKind where
  | unicode
  | ascii
  deriving DecidableEq, Repr

/-- A condition on a place in a text. -/
inductive Look where
  | textStart
  | textEnd
  | lineStart
  | lineEnd
  | crlfStart
  | crlfEnd
  | wordEdge (kind : WordKind)
  | noWordEdge (kind : WordKind)
  | wordStart (kind : WordKind)
  | wordEnd (kind : WordKind)
  | noWordBefore (kind : WordKind)
  | noWordAfter (kind : WordKind)
  deriving DecidableEq, Repr

namespace WordKind

open Unicode

/-- The characters of words. -/
def unicodeSet : CharSet :=
  .unionAll [Property.alphabetic.set, Category.mark, Category.decimalNumber,
    Category.connectorPunctuation, Property.joinControl.set]

/-- The characters of words within ASCII. -/
def asciiSet : CharSet := ⟨[⟨0x30, 0x39⟩, ⟨0x41, 0x5A⟩, ⟨0x5F, 0x5F⟩, ⟨0x61, 0x7A⟩]⟩

/-- The characters of words of a kind. -/
def set : WordKind → CharSet
  | .unicode => unicodeSet
  | .ascii => asciiSet

/-- A character of a word, if there is a character. -/
def has (kind : WordKind) : Option Char → Bool
  | some c => kind.set.contains c
  | none => false

end WordKind

/-- A condition holds between two characters, either of which may be absent. -/
def Look.holds (look : Look) (before after : Option Char) : Bool :=
  match look with
  | .textStart => before.isNone
  | .textEnd => after.isNone
  | .lineStart => before.isNone || before == some '\n'
  | .lineEnd => after.isNone || after == some '\n'
  | .crlfStart =>
    before.isNone || before == some '\n' || (before == some '\r' && after != some '\n')
  | .crlfEnd => after.isNone || after == some '\r' || (after == some '\n' && before != some '\r')
  | .wordEdge kind => kind.has before != kind.has after
  | .noWordEdge kind => kind.has before == kind.has after
  | .wordStart kind => !kind.has before && kind.has after
  | .wordEnd kind => kind.has before && !kind.has after
  | .noWordBefore kind => !kind.has before
  | .noWordAfter kind => !kind.has after

/-- What stretches of text are searched for. -/
inductive Pattern where
  /-- A stretch without characters. -/
  | empty
  /-- One character of a set. -/
  | char (members : CharSet)
  /-- A stretch without characters at a place where a condition holds. -/
  | look (look : Look)
  /-- Two stretches, one behind the other. -/
  | concat (first second : Pattern)
  /-- A stretch of one of two patterns. -/
  | either (left right : Pattern)
  /-- At least and at most so many stretches, one behind the other. -/
  | repeated (inner : Pattern) (least : Nat) (most : Option Nat)
  deriving DecidableEq, Repr

namespace Pattern

/-- The character before a place. -/
def before (text : List Char) : Nat → Option Char
  | 0 => none
  | place + 1 => text[place]?

/-- A pattern matches the stretch of a text between two places. -/
inductive Matches (text : List Char) : Pattern → Nat → Nat → Prop where
  | empty {place : Nat} (inside : place ≤ text.length) : Matches text .empty place place
  | char {members : CharSet} {place : Nat} {c : Char} (found : text[place]? = some c)
      (member : members.contains c = true) : Matches text (.char members) place (place + 1)
  | look {look : Look} {place : Nat} (inside : place ≤ text.length)
      (holds : look.holds (before text place) text[place]? = true) :
      Matches text (.look look) place place
  | concat {first second : Pattern} {start middle stop : Nat}
      (front : Matches text first start middle) (back : Matches text second middle stop) :
      Matches text (.concat first second) start stop
  | left {left right : Pattern} {start stop : Nat} (matched : Matches text left start stop) :
      Matches text (.either left right) start stop
  | right {left right : Pattern} {start stop : Nat} (matched : Matches text right start stop) :
      Matches text (.either left right) start stop
  | done {inner : Pattern} {most : Option Nat} {place : Nat} (inside : place ≤ text.length) :
      Matches text (.repeated inner 0 most) place place
  | more {inner : Pattern} {least : Nat} {most : Option Nat} {start middle stop : Nat}
      (allowed : most ≠ some 0) (front : Matches text inner start middle)
      (back : Matches text (.repeated inner (least - 1) (most.map (· - 1))) middle stop) :
      Matches text (.repeated inner least most) start stop

/-- One given character after another. -/
def word : List Char → Pattern
  | [] => .empty
  | [c] => .char (.single c)
  | c :: rest => .concat (.char (.single c)) (word rest)

end Pattern

end Ancestry
