import Ancestry.Pickaxe

/-!
# Filters

A filter decides about one commit after another. It includes a commit, excludes it, or
excludes it and says that the walk may stop. Filters combine by negation, conjunction and
disjunction; the right side is asked only where the left side does not decide.

Two filters count the commits that they are asked about. A filter that is asked
therefore gives a filter that is asked next, also when it fails.
-/

namespace Ancestry

/-- What a filter decides. -/
inductive Outcome where
  | include
  | exclude
  | stop
  deriving DecidableEq, Repr, Inhabited

namespace Outcome

/-- Included or excluded. -/
def ofBool (included : Bool) : Outcome := if included then .include else .exclude

/-- The walk may stop. -/
def isStop : Outcome → Bool
  | .stop => true
  | _ => false

/-- Included becomes excluded, and excluded in either way becomes included. -/
def opposite : Outcome → Outcome
  | .include => .exclude
  | .exclude => .include
  | .stop => .include

end Outcome

/-- Bounds on commit times, which lie within. -/
inductive Window where
  | after (earliest : Int)
  | before (latest : Int)
  | between (earliest latest : Int)
  deriving DecidableEq, Repr

namespace Window

/-- Before the lower bound a walk may stop, as later commits are older. -/
def judge : Window → (time : Int) → Outcome
  | .after earliest, time => if time < earliest then .stop else .include
  | .before latest, time => .ofBool (time ≤ latest)
  | .between earliest latest, time => if time < earliest then .stop else .ofBool (time ≤ latest)

/-- The bounds around two dots. -/
def display : Window → String
  | .after earliest => s!"{earliest}.."
  | .before latest => s!"..{latest}"
  | .between earliest latest => s!"{earliest}..{latest}"

end Window

/-- A filter of commits. -/
inductive Filter where
  | everything
  | nothing
  | negation (inner : Filter)
  | both (left right : Filter)
  | oneOf (left right : Filter)
  | noMerges
  | window (window : Window)
  | message (search : MessageSearch)
  | occurrences (needle : Needle)
  /-- Includes commits until it has seen `limit` of them. -/
  | atMost (limit seen : Nat)
  /-- Excludes commits until it has seen `count` of them. -/
  | skip (count seen : Nat)
  deriving DecidableEq, Repr

namespace Filter

instance : Inhabited Filter := ⟨.everything⟩

/-- All of some filters, from left to right. -/
def all : List Filter → Filter
  | [] => .everything
  | filter :: rest => rest.foldl .both filter

/-- Asks about a commit. -/
def judge (source : Source) (node : Node) :
    Filter → Graph → Except Fault Outcome × Filter × Graph
  | .everything, graph => (.ok .include, .everything, graph)
  | .nothing, graph => (.ok .stop, .nothing, graph)
  | .negation inner, graph =>
    match inner.judge source node graph with
    | (result, inner, graph) => (result.map Outcome.opposite, .negation inner, graph)
  | .both left right, graph =>
    match left.judge source node graph with
    | (.ok .include, left, graph) =>
      match right.judge source node graph with
      | (result, right, graph) => (result, .both left right, graph)
    | (result, left, graph) => (result, .both left right, graph)
  | .oneOf left right, graph =>
    match left.judge source node graph with
    | (.error fault, left, graph) => (.error fault, .oneOf left right, graph)
    | (.ok .include, left, graph) => (.ok .include, .oneOf left right, graph)
    | (.ok first, left, graph) =>
      match right.judge source node graph with
      | (.error fault, right, graph) => (.error fault, .oneOf left right, graph)
      | (.ok .include, right, graph) => (.ok .include, .oneOf left right, graph)
      | (.ok second, right, graph) =>
        (.ok (if first.isStop && second.isStop then .stop else .exclude), .oneOf left right, graph)
  | .noMerges, graph => (.ok (.ofBool (!node.isMerge)), .noMerges, graph)
  | .window bounds, graph => (.ok (bounds.judge node.time), .window bounds, graph)
  | .message search, graph =>
    match graph.message source node with
    | (result, graph) => (result.map fun text => .ofBool (search.isIn text), .message search, graph)
  | .occurrences needle, graph =>
    match Pickaxe.touches source needle graph node with
    | (result, graph) => (result.map Outcome.ofBool, .occurrences needle, graph)
  | .atMost limit seen, graph =>
    if limit ≤ seen then (.ok .stop, .atMost limit seen, graph)
    else (.ok .include, .atMost limit (seen + 1), graph)
  | .skip count seen, graph =>
    if seen < count then (.ok .exclude, .skip count (seen + 1), graph)
    else (.ok .include, .skip count seen, graph)

/-- Reads the message of a commit. -/
def needsMessage : Filter → Bool
  | .message _ => true
  | .negation inner => inner.needsMessage
  | .both left right => left.needsMessage || right.needsMessage
  | .oneOf left right => left.needsMessage || right.needsMessage
  | _ => false

/-- The filter before it was asked for the first time. -/
def fresh : Filter → Filter
  | .negation inner => .negation inner.fresh
  | .both left right => .both left.fresh right.fresh
  | .oneOf left right => .oneOf left.fresh right.fresh
  | .atMost limit _ => .atMost limit 0
  | .skip count _ => .skip count 0
  | filter => filter

/-- The filter in text. -/
def display : Filter → String
  | .everything => "ALL"
  | .nothing => "NONE"
  | .negation inner => "NOT " ++ inner.display
  | .both left right => "(" ++ left.display ++ " AND " ++ right.display ++ ")"
  | .oneOf left right => "(" ++ left.display ++ " OR " ++ right.display ++ ")"
  | .noMerges => "NO_MERGES"
  | .window bounds => "COMMIT_TIME(" ++ bounds.display ++ ")"
  | .message search => "MESSAGE(" ++ Text.Quoted.encode search.text ++ ")"
  | .occurrences needle => "PICKAXE(" ++ Text.Quoted.encode needle.text ++ ")"
  | .atMost limit _ => "MAX_COUNT(" ++ Text.digits 10 limit ++ ")"
  | .skip count _ => "SKIP(" ++ Text.digits 10 count ++ ")"

end Filter

end Ancestry
