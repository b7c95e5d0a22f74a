import Ancestry.Changes
import Ancestry.Graph
import Ancestry.Occurrences

/-!
# Commits that change a number of occurrences

A commit touches a needle when some path holds it a different number of times before
and after. Before is each parent in turn, and for a root commit the empty tree; the
first parent with a difference decides. An absent file holds nothing.
-/

namespace Ancestry.Pickaxe

/-- Number of occurrences in the object of an identifier. -/
def occurrences (source : Source) (needle : Needle) (id : ObjectId) : Except Fault Nat :=
  if id.isZero then .ok 0 else (source.payload id).map needle.count

/-- Some of the changes changes the number of occurrences. -/
def anyDiffers (source : Source) (needle : Needle) : List (Path × Change) → Except Fault Bool
  | [] => .ok false
  | (_, change) :: rest =>
    match occurrences source needle change.oldId with
    | .error fault => .error fault
    | .ok old =>
      match occurrences source needle change.newId with
      | .error fault => .error fault
      | .ok new => if old = new then anyDiffers source needle rest else .ok true

/-- The number of occurrences differs somewhere between two trees. -/
def treesDiffer (source : Source) (needle : Needle) (old : Option ObjectId) (new : ObjectId) :
    Except Fault Bool :=
  match Changes.between source old new with
  | .error fault => .error fault
  | .ok changes => anyDiffers source needle changes

/-- The number of occurrences differs between a tree and that of some parent. -/
def anyParentDiffers (source : Source) (needle : Needle) (tree : ObjectId) :
    List ObjectId → Graph → Except Fault Bool × Graph
  | [], graph => (.ok false, graph)
  | parent :: rest, graph =>
    match graph.resolve source parent with
    | (.error fault, graph) => (.error fault, graph)
    | (.ok node, graph) =>
      match treesDiffer source needle (some node.tree) tree with
      | .error fault => (.error fault, graph)
      | .ok true => (.ok true, graph)
      | .ok false => anyParentDiffers source needle tree rest graph

/-- A commit changes the number of occurrences. -/
def touches (source : Source) (needle : Needle) (graph : Graph) (node : Node) :
    Except Fault Bool × Graph :=
  if node.isRoot then (treesDiffer source needle none node.tree, graph)
  else anyParentDiffers source needle node.tree node.parents graph

end Ancestry.Pickaxe
