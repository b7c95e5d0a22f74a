import Ancestry.Pattern.Basic
import Ancestry.Machine.Encoding

/-!
# Outlines of patterns

The outline of a pattern is what a machine for it is built from. Parts that stand side
by side are kept in one list, and so are branches; what the parts allow to simplify is
simplified when they are put together: characters side by side become words, branches
of one character each become a set, and what all branches begin with is taken out.
-/

namespace Ancestry.Machine

/-- An outline over sets of some kind. -/
inductive Outline (σ : Type) where
  /-- A stretch without characters. -/
  | empty
  /-- Given characters, at least one. -/
  | word (chars : List Char)
  /-- One character of a set. -/
  | set (members : σ)
  /-- A condition on a place. -/
  | look (condition : Look)
  /-- Several stretches, as many as possible if `eager`. -/
  | repeated (inner : Outline σ) (least : Nat) (most : Option Nat) (eager : Bool)
  /-- A stretch whose ends are remembered. -/
  | group (inner : Outline σ)
  /-- At least two stretches, one behind another. -/
  | sequence (parts : List (Outline σ))
  /-- A stretch of one of at least two outlines. -/
  | choice (branches : List (Outline σ))
  deriving Inhabited

namespace Outline

variable {σ τ : Type}

mutual

/-- Matches only stretches without characters. -/
def isWidthless : Outline σ → Bool
  | .empty => true
  | .word _ => false
  | .set _ => false
  | .look _ => true
  | .repeated inner _ most _ => most.isSome && inner.isWidthless
  | .group inner => inner.isWidthless
  | .sequence parts => allWidthless parts
  | .choice branches => allWidthless branches

/-- All of some outlines match only stretches without characters. -/
def allWidthless : List (Outline σ) → Bool
  | [] => true
  | outline :: rest => outline.isWidthless && allWidthless rest

end

mutual

/-- Two outlines say the same. Groups are told apart, wherever they are. -/
def same [BEq σ] : Outline σ → Outline σ → Bool
  | .empty, .empty => true
  | .word left, .word right => left == right
  | .set left, .set right => left == right
  | .look left, .look right => left == right
  | .repeated left least most eager, .repeated right least' most' eager' =>
    least == least' && most == most' && eager == eager' && same left right
  | .sequence left, .sequence right => sameAll left right
  | .choice left, .choice right => sameAll left right
  | _, _ => false

/-- Two lists of outlines say the same. -/
def sameAll [BEq σ] : List (Outline σ) → List (Outline σ) → Bool
  | [], [] => true
  | left :: lefts, right :: rights => same left right && sameAll lefts rights
  | _, _ => false

end

mutual

/-- The outline with its sets turned into something else. -/
def map (f : σ → τ) : Outline σ → Outline τ
  | .empty => .empty
  | .word chars => .word chars
  | .set members => .set (f members)
  | .look condition => .look condition
  | .repeated inner least most eager => .repeated (map f inner) least most eager
  | .group inner => .group (map f inner)
  | .sequence parts => .sequence (mapAll f parts)
  | .choice branches => .choice (mapAll f branches)

/-- Outlines with their sets turned into something else. -/
def mapAll (f : σ → τ) : List (Outline σ) → List (Outline τ)
  | [] => []
  | outline :: rest => map f outline :: mapAll f rest

end

mutual

/-- Holds only where a condition does: one that every stretch begins with, or ends with
when the outline is read `backward`. -/
def demands (wanted : Look) (backward : Bool) : Outline σ → Bool
  | .empty => false
  | .word _ => false
  | .set _ => false
  | .look condition => condition == wanted
  | .repeated inner least _ _ => least != 0 && demands wanted backward inner
  | .group inner => demands wanted backward inner
  | .sequence parts =>
    if backward then lastDemands wanted parts else firstDemand wanted parts
  | .choice branches => allDemand wanted backward branches

/-- One of the parts up to the first with a character demands the condition. -/
def firstDemand (wanted : Look) : List (Outline σ) → Bool
  | [] => false
  | part :: rest => demands wanted false part || (part.isWidthless && firstDemand wanted rest)

/-- One of the parts from the last with a character on demands the condition. -/
def lastDemands (wanted : Look) : List (Outline σ) → Bool
  | [] => false
  | part :: rest =>
    lastDemands wanted rest || (allWidthless rest && demands wanted true part)

/-- Every branch demands the condition. -/
def allDemand (wanted : Look) (backward : Bool) : List (Outline σ) → Bool
  | [] => true
  | branch :: rest => demands wanted backward branch && allDemand wanted backward rest

end

/-- Characters side by side become one word. -/
def joinWords (parts : List (Outline σ)) : List (Outline σ) :=
  parts.foldr (fun part behind =>
    match part, behind with
    | .word front, .word back :: more => .word (front ++ back) :: more
    | part, behind => part :: behind) []

/-- The parts of an outline. -/
def parts : Outline σ → List (Outline σ)
  | .empty => []
  | .sequence parts => parts
  | outline => [outline]

/-- The branches of an outline. -/
def branches : Outline σ → List (Outline σ)
  | .choice branches => branches
  | outline => [outline]

/-- Outlines one behind another. -/
def inSequence (outlines : List (Outline σ)) : Outline σ :=
  match joinWords (outlines.flatMap parts) with
  | [] => .empty
  | [part] => part
  | parts => .sequence parts

/-- A repetition. What has no characters is repeated at most once; no repetition and a
single one are left out. -/
def repetition (inner : Outline σ) (least : Nat) (most : Option Nat) (eager : Bool) : Outline σ :=
  let bounds := if inner.isWidthless then (min least 1, some ((most.map (min · 1)).getD 1))
    else (least, most)
  if bounds.2 = some 0 then .empty
  else if bounds = (1, some 1) then inner
  else .repeated inner bounds.1 bounds.2 eager

/-- One character of a set; a set of one character is a word. -/
def ofSet (set : CharSet) : Outline CharSet :=
  let members := set.difference surrogates
  match members.ranges with
  | [range] => if range.first = range.last then .word [Char.ofNat range.first] else .set members
  | _ => .set members

/-- The character of a word that has no other. -/
def onlyChar? : Outline σ → Option Char
  | .word [c] => some c
  | _ => none

/-- The members of a set. -/
def members? : Outline σ → Option σ
  | .set members => some members
  | _ => none

/-- The parts of a sequence. -/
def sequenceParts? : Outline σ → Option (List (Outline σ))
  | .sequence parts => some parts
  | _ => none

/-- What two lists of outlines begin with. -/
def common [BEq σ] : List (Outline σ) → List (Outline σ) → List (Outline σ)
  | left :: lefts, right :: rights => if same left right then left :: common lefts rights else []
  | _, _ => []

/-- Branches to choose from. Characters and sets become one set. -/
def plainChoice (outlines : List (Outline CharSet)) : Outline CharSet :=
  match outlines.flatMap branches with
  | [branch] => branch
  | branches =>
    match branches.mapM onlyChar?, branches.mapM members? with
    | some chars, _ => ofSet (.unionAll (chars.map CharSet.single))
    | none, some sets => ofSet (.unionAll sets)
    | none, none => .choice branches

/-- Branches to choose from. What sequences all begin with is taken out; what is left of
them has no common beginning. -/
def inChoice (outlines : List (Outline CharSet)) : Outline CharSet :=
  match plainChoice outlines with
  | .choice branches =>
    match branches.mapM sequenceParts? with
    | some (first :: others) =>
      let front := others.foldl common first
      if front.isEmpty then .choice branches
      else
        let rests := (first :: others).map fun parts => inSequence (parts.drop front.length)
        inSequence (front ++ [plainChoice rests])
    | _ => .choice branches
  | outline => outline

end Outline

end Ancestry.Machine
