import Ancestry.Walk.Basic
import Ancestry.Walk.Topological

/-!
# Running a walk

The latest pending commit is visited: its parents are looked at, and unless it is hidden
the filter decides about it. Excluded commits are visited like others, so that a filter
hides no ancestors. A pass ends when nothing is pending, when only hidden commits are,
when the filter stops it, or with a fault; after that a walk gives out nothing until it
is reset.
-/

namespace Ancestry.Walk

/-- What follows from the visit to a commit. -/
inductive Verdict where
  | emit
  | pass
  | finish
  deriving DecidableEq, Repr, Inhabited

/-- Reads the message of a node if the filter needs it. -/
def prepare (source : Source) (node : Node) : Action Unit :=
  fun walk graph =>
    if walk.filter.needsMessage then
      match walk.body source node graph with
      | (result, walk, graph) => (result.map fun _ => (), walk, graph)
    else (.ok (), walk, graph)

/-- Asks the filter about a node. -/
def judge (source : Source) (node : Node) : Action Outcome :=
  fun walk graph =>
    match prepare source node walk graph with
    | (.error fault, walk, graph) => (.error fault, walk, graph)
    | (.ok (), walk, graph) =>
      match walk.filter.judge source node graph with
      | (result, filter, graph) => (result, { walk with filter }, graph)

/-- Decides about a commit that is not hidden. -/
def decideOn (source : Source) (node : Node) : Action Verdict :=
  fun walk graph =>
    match judge source node walk graph with
    | (.error fault, walk, graph) => (.error fault, walk, graph)
    | (.ok .include, walk, graph) =>
      (.ok .emit, walk.mark node.id ({ · with emitted := true }), graph)
    | (.ok .exclude, walk, graph) => (.ok .pass, walk, graph)
    | (.ok .stop, walk, graph) => (.ok .finish, walk.clearPending, graph)

/-- Takes the first pending node out of the queue. -/
def dequeue (walk : Walk) (hidden : Bool) : Walk :=
  { walk with
    pending := walk.pending.tail
    interesting := if hidden then walk.interesting else walk.interesting - 1 }

/-- Visits the first pending node. -/
def visit (source : Source) (node : Node) : Action Verdict :=
  fun walk graph =>
    let hidden := (walk.marksOf node.id).uninteresting
    match expand source node hidden (walk.dequeue hidden) graph with
    | (.error fault, walk, graph) => (.error fault, walk, graph)
    | (.ok (), walk, graph) =>
      if hidden then
        if walk.interesting = 0 then (.ok .finish, walk.clearPending, graph)
        else (.ok .pass, walk, graph)
      else decideOn source node walk graph

/-- The next commit by time, among the first `most` pending ones. -/
def nextWithin (source : Source) : (most : Nat) → Action (Option Node)
  | most, walk, graph =>
    match walk.pending with
    | [] => (.ok none, walk, graph)
    | node :: _ =>
      match visit source node walk graph with
      | (.error fault, walk, graph) => (.error fault, walk, graph)
      | (.ok .emit, walk, graph) => (.ok (some node), walk, graph)
      | (.ok .finish, walk, graph) => (.ok none, walk, graph)
      | (.ok .pass, walk, graph) =>
        match most with
        | 0 => (.ok none, walk, graph)
        | most + 1 => nextWithin source most walk graph

/-- The next commit by time. No commit is queued twice, so that no more commits are
visited than there are identifiers. -/
def nextByTime (source : Source) : Action (Option Node) := nextWithin source ObjectId.total

/-- At most `most` further commits by time. -/
def collectWithin (source : Source) : (most : Nat) → Action (List Node)
  | most, walk, graph =>
    match nextByTime source walk graph with
    | (.error fault, walk, graph) => (.error fault, walk, graph)
    | (.ok none, walk, graph) => (.ok [], walk, graph)
    | (.ok (some node), walk, graph) =>
      match most with
      | 0 => (.ok [node], walk, graph)
      | most + 1 =>
        match collectWithin source most walk graph with
        | (.error fault, walk, graph) => (.error fault, walk, graph)
        | (.ok nodes, walk, graph) => (.ok (node :: nodes), walk, graph)

/-- All further commits by time. -/
def collect (source : Source) : Action (List Node) := collectWithin source ObjectId.total

/-- Puts collected commits into the order that was asked for. -/
def arrange (walk : Walk) (nodes : List Node) : List Node × Walk :=
  let (nodes, walk) :=
    if walk.order.topological then
      match Topological.sort nodes with
      | (sorted, held) =>
        (sorted, held.foldl (fun walk node => walk.mark node.id ({ · with delayed := true })) walk)
    else (nodes, walk)
  (if walk.order.reversed then nodes.reverse else nodes, walk)

/-- Ends the pass. -/
def abort (walk : Walk) : Walk :=
  { walk.clearPending with phase := .exhausted, output := none }

/-- Ends the pass where an operation fails. -/
def guarded {α : Type} (action : Action α) : Action α :=
  fun walk graph =>
    match action walk graph with
    | (.error fault, walk, graph) => (.error fault, walk.abort, graph)
    | done => done

/-- Starts a pass, and collects all commits where the order needs them. -/
def start (source : Source) : Action Unit :=
  fun walk graph =>
    let walk := { walk with phase := .running }
    if walk.order.needsAll then
      match guarded (collect source) walk graph with
      | (.error fault, walk, graph) => (.error fault, walk, graph)
      | (.ok nodes, walk, graph) =>
        match walk.arrange nodes with
        | (nodes, walk) => (.ok (), { walk with output := some nodes }, graph)
    else (.ok (), walk, graph)

/-- The next commit of a pass that has started. -/
def proceed (source : Source) : Action (Option Node) :=
  fun walk graph =>
    match walk.output with
    | none => nextByTime source walk graph
    | some [] => (.ok none, walk, graph)
    | some (node :: rest) => (.ok (some node), { walk with output := some rest }, graph)

/-- The next commit, or none at the end of the pass. -/
def continued (source : Source) : Action (Option Node) :=
  fun walk graph =>
    match guarded (proceed source) walk graph with
    | (.ok none, walk, graph) => (.ok none, { walk with phase := .exhausted }, graph)
    | done => done

/-- The next commit that the walk gives out, or none at the end of the pass. -/
def next (source : Source) : Action (Option Node) :=
  fun walk graph =>
    match walk.phase with
    | .exhausted => (.ok none, walk, graph)
    | .running => continued source walk graph
    | .configured =>
      match start source walk graph with
      | (.error fault, walk, graph) => (.error fault, walk, graph)
      | (.ok (), walk, graph) => continued source walk graph

/-- Up to `limit` answers, until the end of the pass. -/
def answers (source : Source) : (limit : Nat) → Walk → Graph →
    List (Except Fault Node) × Walk × Graph
  | 0, walk, graph => ([], walk, graph)
  | limit + 1, walk, graph =>
    match next source walk graph with
    | (.ok none, walk, graph) => ([], walk, graph)
    | (.ok (some node), walk, graph) =>
      match answers source limit walk graph with
      | (rest, walk, graph) => (.ok node :: rest, walk, graph)
    | (.error fault, walk, graph) =>
      match answers source limit walk graph with
      | (rest, walk, graph) => (.error fault :: rest, walk, graph)

end Ancestry.Walk
