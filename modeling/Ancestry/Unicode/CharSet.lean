/-!
# Sets of characters

A set of characters is a list of ranges of code points, in increasing order and
with gaps between them. The empty list is the empty set. Building sorts the ranges
and joins those that touch, so that every set has one form, and membership may
stop at the first range that lies above the character.
-/

namespace Ancestry

/-- The code points from `first` to `last`, both included. -/
structure CharRange where
  first : Nat
  last : Nat
  deriving DecidableEq, Repr, Inhabited

/-- Ranges of code points in increasing order, with gaps between them. -/
structure CharSet where
  ranges : List CharRange
  deriving DecidableEq, Repr, Inhabited

namespace CharSet

/-- Greatest code point. -/
def top : Nat := 0x10FFFF

/-- Membership in increasing ranges. -/
def rangesContain (point : Nat) : List CharRange → Bool
  | [] => false
  | range :: rest =>
    if point < range.first then false
    else if point ≤ range.last then true
    else rangesContain point rest

/-- Membership of a code point. -/
def containsPoint (set : CharSet) (point : Nat) : Bool := rangesContain point set.ranges

/-- Membership of a character. -/
def contains (set : CharSet) (c : Char) : Bool := set.containsPoint c.toNat

/-- Joins a range with those that follow it and touch it, in a list ordered by first code
point, and so on with the next that does not. -/
def joinFrom : CharRange → List CharRange → List CharRange
  | range, [] => [range]
  | range, next :: rest =>
    if next.first ≤ range.last + 1 then joinFrom ⟨range.first, max range.last next.last⟩ rest
    else range :: joinFrom next rest

/-- Joins ranges that touch, in a list ordered by first code point. -/
def join : List CharRange → List CharRange
  | [] => []
  | range :: rest => joinFrom range rest

/-- The set of the code points of some ranges, in any order. -/
def ofRanges (ranges : List CharRange) : CharSet :=
  ⟨join (ranges.mergeSort fun a b => a.first ≤ b.first)⟩

/-- No character. -/
def empty : CharSet := ⟨[]⟩

/-- Every character. -/
def all : CharSet := ⟨[⟨0, top⟩]⟩

/-- The code points from one to another. -/
def interval (first last : Nat) : CharSet := ⟨[⟨first, last⟩]⟩

/-- One character. -/
def single (c : Char) : CharSet := interval c.toNat c.toNat

/-- Characters of either set. -/
def union (left right : CharSet) : CharSet :=
  match left.ranges, right.ranges with
  | [], _ => right
  | _, [] => left
  | a, b => ofRanges (a ++ b)

/-- The gaps of increasing ranges from a code point on. -/
def gaps : (start : Nat) → List CharRange → List CharRange
  | start, [] => if start ≤ top then [⟨start, top⟩] else []
  | start, range :: rest =>
    if start < range.first then ⟨start, range.first - 1⟩ :: gaps (range.last + 1) rest
    else gaps (range.last + 1) rest

/-- Characters outside a set. -/
def complement (set : CharSet) : CharSet := ⟨gaps 0 set.ranges⟩

/-- Characters of both sets. -/
def inter (left right : CharSet) : CharSet :=
  (left.complement.union right.complement).complement

/-- Characters of the first set alone. -/
def difference (left right : CharSet) : CharSet := left.inter right.complement

/-- Characters of exactly one of two sets. -/
def symmetric (left right : CharSet) : CharSet :=
  (left.difference right).union (right.difference left)

/-- Characters of any of some sets. -/
def unionAll (sets : List CharSet) : CharSet := ofRanges (sets.flatMap CharSet.ranges)

/-- Holds no code point above U+007F. -/
def isAscii (set : CharSet) : Bool := set.ranges.all fun range => range.last ≤ 0x7F

/-- Value of a list of hexadecimal digits. -/
def hexNat (digits : List Char) : Nat :=
  digits.foldl (fun value c => value * 16 + (if c.toNat < 58 then c.toNat - 48 else c.toNat - 87)) 0

/-- Every second code point, `count` of them. -/
def everySecond : (count first : Nat) → List CharRange
  | 0, _ => []
  | count + 1, first => ⟨first, first⟩ :: everySecond count (first + 2)

/-- Ranges of one item: `41` is a code point, `41-5a` a range, and `100~12e` every
second code point of a range. -/
def rangesOfItem (item : List Char) : List CharRange :=
  let first := hexNat (item.takeWhile fun c => c != '-' && c != '~')
  match item.dropWhile fun c => c != '-' && c != '~' with
  | [] => [⟨first, first⟩]
  | mark :: digits =>
    let last := hexNat digits
    if mark = '-' then [⟨first, last⟩] else everySecond ((last - first) / 2 + 1) first

/-- An item that was read backwards, unless it is empty. -/
def finished (item : List Char) : List (List Char) := if item.isEmpty then [] else [item.reverse]

/-- The items of a list of characters, separated by spaces and line feeds; `item` holds
the current item backwards. -/
def items : (item : List Char) → List Char → List (List Char)
  | item, [] => finished item
  | item, c :: rest =>
    if c = ' ' ∨ c = '\n' then finished item ++ items [] rest else items (c :: item) rest

/-- The set that a table lists in increasing order. -/
def ofTable (table : String) : CharSet := ⟨(items [] table.toList).flatMap rangesOfItem⟩

end CharSet

end Ancestry
