import Ancestry.Source

/-!
# The commit graph

A node is a commit's identifier with its header. A graph reads headers and messages
from a source and keeps what it has read, so that nothing is read twice.
-/

namespace Ancestry

/-- A commit in the graph. -/
structure Node where
  id : ObjectId
  header : CommitHeader
  deriving DecidableEq, Inhabited

namespace Node

/-- Identifiers of the parents in stored order. -/
def parents (node : Node) : List ObjectId := node.header.parents

/-- The committer's seconds. -/
def time (node : Node) : Int := node.header.time

/-- The identifier of the tree. -/
def tree (node : Node) : ObjectId := node.header.tree

/-- Has no parent. -/
def isRoot (node : Node) : Bool := node.parents.isEmpty

/-- Has more than one parent. -/
def isMerge (node : Node) : Bool := 1 < node.parents.length

/-- Short identifier and time. -/
def describe (node : Node) : String := s!"CommitNode({node.id.short} @ {node.time})"

end Node

/-- Headers and messages that have been read. -/
structure Graph where
  headers : Std.TreeMap ObjectId CommitHeader := ∅
  messages : Std.TreeMap ObjectId String := ∅

namespace Graph

instance : Inhabited Graph := ⟨{}⟩

/-- The node of an identifier. -/
def resolve (source : Source) (graph : Graph) (id : ObjectId) : Except Fault Node × Graph :=
  match graph.headers[id]? with
  | some header => (.ok ⟨id, header⟩, graph)
  | none =>
    match source.header id with
    | .error fault => (.error fault, graph)
    | .ok header => (.ok ⟨id, header⟩, { graph with headers := graph.headers.insert id header })

/-- The message of a node. -/
def message (source : Source) (graph : Graph) (node : Node) : Except Fault String × Graph :=
  match graph.messages[node.id]? with
  | some message => (.ok message, graph)
  | none =>
    match source.message node.id with
    | .error fault => (.error fault, graph)
    | .ok message =>
      (.ok message, { graph with messages := graph.messages.insert node.id message })

/-- How much has been read. -/
def describe (graph : Graph) : String :=
  "CommitGraph \x7b headers: " ++ Text.digits 10 graph.headers.size ++ ", bodies: " ++
    Text.digits 10 graph.messages.size ++ " \x7d"

end Graph

end Ancestry
