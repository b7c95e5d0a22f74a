import Ancestry.Pattern.Basic

/-!
# Where patterns begin to match

Sets of places are numbers whose bits stand for the places. A pattern is worked from
its end to its beginning: it takes the set of places where a stretch may end to the set
of places where a stretch with such an end may begin. The sets and conditions of a
pattern are first replaced by the places in one text where they hold, so that the text
is read once for each of them.
-/

namespace Ancestry.Pattern

/-- A pattern whose parts know the places of one text where they hold. -/
inductive Plan where
  | empty
  | char (places : Nat)
  | look (places : Nat)
  | concat (first second : Plan)
  | either (left right : Plan)
  | repeated (inner : Plan) (least : Nat) (most : Option Nat)
  deriving DecidableEq, Repr

/-- The places of characters that have a property. -/
def charPlaces (holds : Char → Bool) : List Char → Nat
  | [] => 0
  | c :: rest => 2 * charPlaces holds rest + (holds c).toNat

/-- The places from the one behind `before` on where a condition holds. -/
def lookPlaces (condition : Look) : (before : Option Char) → List Char → Nat
  | before, [] => (condition.holds before none).toNat
  | before, c :: rest =>
    2 * lookPlaces condition (some c) rest + (condition.holds before (some c)).toNat

/-- Looks a pattern's parts up in a text. -/
def plan (text : List Char) : Pattern → Plan
  | .empty => .empty
  | .char members => .char (charPlaces members.contains text)
  | .look condition => .look (lookPlaces condition none text)
  | .concat first second => .concat (first.plan text) (second.plan text)
  | .either left right => .either (left.plan text) (right.plan text)
  | .repeated inner least most => .repeated (inner.plan text) least most

/-- Applies a step so many times, or until nothing changes. -/
def applyTimes (step : Nat → Nat) : (count : Nat) → Nat → Nat
  | 0, places => places
  | count + 1, places =>
    if step places = places then places else applyTimes step count (step places)

/-- The places from which `ends` are reached in at most so many steps. -/
def reachWithin (step : Nat → Nat) (ends : Nat) : (count : Nat) → Nat → Nat
  | 0, places => places
  | count + 1, places =>
    if ends ||| step places = places then places
    else reachWithin step ends count (ends ||| step places)

/-- The places where a stretch may begin that ends in one of `ends`, in a text of
`length` characters. Steps lead to no later place, so that one more step than there are
places changes nothing. -/
def Plan.starts (length : Nat) : Plan → (ends : Nat) → Nat
  | .empty, ends => ends
  | .char places, ends => (ends >>> 1) &&& places
  | .look places, ends => ends &&& places
  | .concat first second, ends => first.starts length (second.starts length ends)
  | .either left right, ends => left.starts length ends ||| right.starts length ends
  | .repeated inner least most, ends =>
    let optional := match most with
      | none => length + 1
      | some most => most - least
    if most.any (· < least) then 0
    else
      applyTimes (inner.starts length) least (reachWithin (inner.starts length) ends optional ends)

/-- The places where a pattern begins to match in a text. -/
def starts (pattern : Pattern) (text : List Char) : Nat :=
  (pattern.plan text).starts text.length (Nat.pow 2 (text.length + 1) - 1)

/-- The first place of a set. -/
def firstPlace? (places : Nat) : Option Nat :=
  if places = 0 then none else some (places - (places &&& (places - 1))).log2

/-- The first place of a set from a place on. -/
def nextPlace? (places start : Nat) : Option Nat :=
  (firstPlace? (places >>> start)).map (start + ·)

/-- The first place from a place on where a pattern begins to match. -/
def find? (pattern : Pattern) (text : List Char) (start : Nat) : Option Nat :=
  nextPlace? (pattern.starts text) start

/-- Counts what a search finds from a place on, where each search goes on behind the
place that the one before it found. -/
def countFound (search : Nat → Option Nat) (length : Nat) : (most start : Nat) → Nat
  | 0, _ => 0
  | most + 1, start =>
    if length < start then 0
    else
      match search start with
      | none => 0
      | some place => countFound search length most (place + 1) + 1

/-- Number of places of a text where a pattern begins to match. -/
def count (pattern : Pattern) (text : List Char) : Nat :=
  let places := pattern.starts text
  countFound (nextPlace? places) text.length (text.length + 1) 0

/-- A pattern matches somewhere in a text. -/
def isIn (pattern : Pattern) (text : List Char) : Bool := (pattern.find? text 0).isSome

end Ancestry.Pattern
