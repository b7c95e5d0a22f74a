import Ancestry.Filter
import Ancestry.Walk.Marks

/-!
# The state of a walk

A walk keeps discovered commits in a queue, latest first; commits of one time leave it
in the order in which they came. Commits may be hidden. A hidden commit passes its mark
on to its parents as soon as they are known to the walk, and a counter says how many
queued commits are not hidden.

Everything that a walk reads goes through a graph, which the operations here take and
give back.
-/

namespace Ancestry

/-- How far a walk is. -/
inductive Phase where
  | configured
  | running
  | exhausted
  deriving DecidableEq, Repr, Inhabited

/-- The name of a phase. -/
def Phase.name : Phase → String
  | .configured => "Configured"
  | .running => "Running"
  | .exhausted => "Exhausted"

/-- A walk over commits. -/
structure Walk where
  filter : Filter := .everything
  order : Order := {}
  phase : Phase := .configured
  marks : Std.TreeMap ObjectId Marks := ∅
  /-- Discovered commits that have not been visited. -/
  pending : List Node := []
  /-- Number of pending commits that are not hidden. -/
  interesting : Nat := 0
  /-- What remains to be given out when all commits were needed first. -/
  output : Option (List Node) := none

namespace Walk

instance : Inhabited Walk := ⟨{}⟩

/-- The marks of a commit. -/
def marksOf (walk : Walk) (id : ObjectId) : Marks := walk.marks.getD id {}

/-- Changes the marks of a commit. -/
def mark (walk : Walk) (id : ObjectId) (change : Marks → Marks) : Walk :=
  { walk with marks := walk.marks.insert id (change (walk.marksOf id)) }

/-- Puts a node behind those that are not older. -/
def enqueue (node : Node) : List Node → List Node
  | [] => [node]
  | first :: rest =>
    if first.time < node.time then node :: first :: rest else first :: enqueue node rest

/-- Queues a node, unless it was queued before. -/
def discover (walk : Walk) (node : Node) : Walk :=
  let marks := walk.marksOf node.id
  if marks.discovered then walk
  else
    let marked := walk.mark node.id ({ · with discovered := true })
    { marked with
      pending := enqueue node walk.pending
      interesting := if marks.uninteresting then walk.interesting else walk.interesting + 1 }

/-- Forgets what is queued. -/
def clearPending (walk : Walk) : Walk := { walk with pending := [], interesting := 0 }

/-- An operation on a walk and a graph that may fail. -/
abbrev Action (α : Type) := Walk → Graph → Except Fault α × Walk × Graph

/-- Does something for each of some commits until it fails. -/
def eachOf (step : ObjectId → Action Unit) : List ObjectId → Action Unit
  | [], walk, graph => (.ok (), walk, graph)
  | id :: rest, walk, graph =>
    match step id walk graph with
    | (.ok (), walk, graph) => eachOf step rest walk graph
    | failed => failed

/-- Hides a commit, and what it leads to through visited commits at most `most` steps
away. -/
def hideWithin (source : Source) : (most : Nat) → ObjectId → Action Unit
  | most, id, walk, graph =>
    let marks := walk.marksOf id
    if marks.uninteresting then (.ok (), walk, graph)
    else
      let walk := walk.mark id ({ · with uninteresting := true })
      if marks.headerRead then
        match graph.resolve source id, most with
        | (.error fault, graph), _ => (.error fault, walk, graph)
        | (.ok _, graph), 0 => (.ok (), walk, graph)
        | (.ok node, graph), most + 1 =>
          eachOf (hideWithin source most) node.parents.reverse walk graph
      else if marks.discovered then
        (.ok (), { walk with interesting := walk.interesting - 1 }, graph)
      else (.ok (), walk, graph)

/-- Hides a commit, and what it leads to through visited commits. No path visits more
commits than there are identifiers. -/
def carryHidden (source : Source) (id : ObjectId) : Action Unit :=
  hideWithin source ObjectId.total id

/-- Looks at a parent of a visited commit: hides it if the commit is hidden, and queues
it if it is new. -/
def meetParent (source : Source) (hidden : Bool) (parent : ObjectId) : Action Unit :=
  fun walk graph =>
    match if hidden then carryHidden source parent walk graph else (.ok (), walk, graph) with
    | (.error fault, walk, graph) => (.error fault, walk, graph)
    | (.ok (), walk, graph) =>
      if (walk.marksOf parent).discovered then (.ok (), walk, graph)
      else
        match graph.resolve source parent with
        | (.error fault, graph) => (.error fault, walk, graph)
        | (.ok node, graph) => (.ok (), walk.discover node, graph)

/-- Looks at the parents of a visited commit. -/
def expand (source : Source) (node : Node) (hidden : Bool) : Action Unit :=
  fun walk graph =>
    eachOf (meetParent source hidden) node.parents
      (walk.mark node.id ({ · with headerRead := true })) graph

/-- The message of a node. -/
def body (source : Source) (node : Node) : Action String :=
  fun walk graph =>
    match graph.message source node with
    | (.error fault, graph) => (.error fault, walk, graph)
    | (.ok message, graph) =>
      (.ok message, walk.mark node.id ({ · with bodyRead := true }), graph)

/-- Does something to a walk that has not started. -/
def whenConfigured (action : Action Unit) : Action Unit :=
  fun walk graph =>
    if walk.phase = .configured then action walk graph else (.error .walkStarted, walk, graph)

/-- Chooses the filter. -/
def setFilter (filter : Filter) : Action Unit :=
  whenConfigured fun walk graph => (.ok (), { walk with filter }, graph)

/-- Chooses the order. -/
def setOrder (order : Order) : Action Unit :=
  whenConfigured fun walk graph => (.ok (), { walk with order }, graph)

/-- Starts from a commit. -/
def markStart (source : Source) (id : ObjectId) : Action Unit :=
  whenConfigured fun walk graph =>
    match graph.resolve source id with
    | (.error fault, graph) => (.error fault, walk, graph)
    | (.ok node, graph) => (.ok (), walk.discover node, graph)

/-- Hides a commit and all that is reachable from it. -/
def hide (source : Source) (id : ObjectId) : Action Unit :=
  whenConfigured fun walk graph =>
    match graph.resolve source id with
    | (.error fault, graph) => (.error fault, walk, graph)
    | (.ok node, graph) =>
      match carryHidden source id walk graph with
      | (.error fault, walk, graph) => (.error fault, walk, graph)
      | (.ok (), walk, graph) => (.ok (), walk.discover node, graph)

/-- Makes a walk ready for another pass: marks, queue and kept commits are forgotten, the
filter is as it was at first, and the order stays. -/
def reset (walk : Walk) : Walk :=
  { walk.clearPending with
    filter := walk.filter.fresh
    phase := .configured
    marks := ∅
    output := none }

/-- The walk in text. -/
def describe (walk : Walk) : String :=
  "RevWalk \x7b filter: " ++ Text.Quoted.encode walk.filter.display ++ ", sort: RevSort(" ++
    walk.order.display ++ "), state: " ++ walk.phase.name ++ ", pending: " ++
    Text.digits 10 walk.pending.length ++ " \x7d"

end Walk

end Ancestry
