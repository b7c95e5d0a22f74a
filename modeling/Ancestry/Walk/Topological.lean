import Ancestry.Graph

/-!
# Topological order

Nodes are reordered so that none stands before one of its children. A node whose turn
comes too early is held back and follows its last child at once. What is held back for
ever, which takes a cycle of parents, is left out.
-/

namespace Ancestry.Topological

/-- Number of children of each node that still have to come. -/
abbrev Remaining := Std.TreeMap ObjectId Nat

/-- Counts one more child of a commit, if the commit is counted at all. -/
def addChild (remaining : Remaining) (parent : ObjectId) : Remaining :=
  match remaining[parent]? with
  | some count => remaining.insert parent (count + 1)
  | none => remaining

/-- How many children each of some nodes has among them. A parent that is named twice
counts twice. -/
def childCounts (nodes : List Node) : Remaining :=
  (nodes.flatMap Node.parents).foldl addChild
    (nodes.foldl (fun counts node => counts.insert node.id 0) ∅)

/-- Children that are missing, nodes that are held back, and nodes to come. -/
structure State where
  remaining : Remaining
  held : Std.TreeMap ObjectId Node
  queue : List Node

instance : Inhabited State := ⟨⟨∅, ∅, []⟩⟩

namespace State

/-- One child of a commit has come. A commit that was held back for it is next. -/
def release (state : State) (parent : ObjectId) : State :=
  match state.remaining[parent]? with
  | none => state
  | some count =>
    let state := { state with remaining := state.remaining.insert parent (count - 1) }
    match if count - 1 = 0 then state.held[parent]? else none with
    | none => state
    | some node => { state with held := state.held.erase parent, queue := node :: state.queue }

/-- Holds a node back. -/
def hold (state : State) (node : Node) : State :=
  { state with held := state.held.insert node.id node }

/-- Children of a commit that still have to come. -/
def missing (state : State) (id : ObjectId) : Nat := state.remaining.getD id 0

/-- Takes at most `most` nodes from the queue. The nodes that are not held back are in
order, those that stay held back are the second result. -/
def run : (most : Nat) → State → List Node × List Node
  | most, state =>
    match state.queue, most with
    | [], _ => ([], state.held.values)
    | _ :: _, 0 => ([], state.held.values)
    | node :: rest, most + 1 =>
      let state := { state with queue := rest }
      if 0 < state.missing node.id then run most (state.hold node)
      else
        match run most (node.parents.foldl release state) with
        | (sorted, held) => (node :: sorted, held)

end State

/-- Nodes in topological order, and those that are held back for ever. Each node is
taken from the queue at most twice. -/
def sort (nodes : List Node) : List Node × List Node :=
  State.run (2 * nodes.length) ⟨childCounts nodes, ∅, nodes⟩

end Ancestry.Topological
