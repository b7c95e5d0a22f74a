import Ancestry.Machine.Assembly

/-!
# States for words

A choice between words is a tree: words that begin alike share a path. Where a word ends
on the way, what came before it keeps its precedence over what comes after it, so that
the bytes that lead on are kept in groups, and only the last group is open for more.
-/

namespace Ancestry.Machine

/-- A place where words go on, by their next bytes: closed groups and the open one. -/
inductive WordTree where
  | node (closed : List (List (UInt8 × WordTree))) (group : List (UInt8 × WordTree))

namespace WordTree

/-- A place where no word goes on. -/
def bare : WordTree := .node [] []

/-- A word ends here: the open group is closed. An end is not marked twice where no word
goes on. -/
def markEnd : WordTree → WordTree
  | .node closed group =>
    if group.isEmpty && !closed.isEmpty && closed.all List.isEmpty then .node closed group
    else .node (closed ++ [group]) []

/-- Changes what a byte leads to. -/
def update (change : WordTree → WordTree) (byte : UInt8) :
    List (UInt8 × WordTree) → List (UInt8 × WordTree)
  | [] => [(byte, change bare)]
  | (found, tree) :: rest =>
    if found = byte then (found, change tree) :: rest else (found, tree) :: update change byte rest

/-- Puts a word into the tree. -/
def insert : (word : List UInt8) → WordTree → WordTree
  | [], tree => tree.markEnd
  | byte :: word, .node closed group => .node closed (update (insert word) byte group)

/-- The tree of words, earlier ones taking precedence. -/
def ofWords (words : List (List UInt8)) : WordTree :=
  words.foldl (fun tree word => tree.insert word) bare

/-- No word goes on. -/
def isLeaf : WordTree → Bool
  | .node closed group => group.isEmpty && closed.all List.isEmpty

/-- Adds the state of a group, of so many bytes. One byte needs no list of transitions. -/
def addGroup (bytes : Nat) : Assembly Unit := do
  let _ ← if bytes = 1 then Assembly.add else Assembly.addTransitions bytes

mutual

/-- Adds the states of a tree: what its bytes lead to, then its groups, then a fork to
the groups and, behind each closed one, to the end. -/
def addStates : WordTree → Assembly Unit
  | .node closed group => do
    let closedGroups ← addClosed closed
    let openGroups ← addOpen group
    let _ ← Assembly.addWith (Room.linkBytes * (closedGroups + openGroups + closed.length))

/-- Adds closed groups and counts those that are not empty. -/
def addClosed : List (List (UInt8 × WordTree)) → Assembly Nat
  | [] => return 0
  | group :: rest => do
    let here ← addOpen group
    let behind ← addClosed rest
    return here + behind

/-- Adds a group, and counts it unless it is empty. -/
def addOpen : List (UInt8 × WordTree) → Assembly Nat
  | [] => return 0
  | transitions => do
    addBelow transitions
    addGroup transitions.length
    return 1

/-- Adds what the bytes of a group lead to. -/
def addBelow : List (UInt8 × WordTree) → Assembly Unit
  | [] => return ()
  | (_, tree) :: rest => do
    if tree.isLeaf then addBelow rest
    else do
      addStates tree
      addBelow rest

end

end WordTree

/-- Adds the states of a choice between words. -/
def addWords (words : List (List UInt8)) : Assembly Unit := do
  let _ ← Assembly.add
  (WordTree.ofWords words).addStates

end Ancestry.Machine
