import Ancestry.Graph

/-!
# Marks of a walk

What a walk has recorded about a commit, and the order in which it gives commits out.
-/

namespace Ancestry

/-- What has happened to a commit in a walk. -/
structure Marks where
  /-- Has been put into the queue. -/
  discovered : Bool := false
  /-- Has left the queue, and its parents have been looked at. -/
  headerRead : Bool := false
  /-- Its message has been read for this walk. -/
  bodyRead : Bool := false
  /-- Has been given out or kept for giving out. -/
  emitted : Bool := false
  /-- Is hidden. -/
  uninteresting : Bool := false
  /-- Waits for children in a topological order. -/
  delayed : Bool := false
  deriving DecidableEq, Repr, Inhabited

namespace Marks

/-- The names of the marks that are set. -/
def names (marks : Marks) : List String :=
  (if marks.discovered then ["DISCOVERED"] else []) ++
    (if marks.headerRead then ["PARSED_HEADER"] else []) ++
    (if marks.bodyRead then ["PARSED_BODY"] else []) ++
    (if marks.emitted then ["EMITTED"] else []) ++
    (if marks.uninteresting then ["UNINTERESTING"] else []) ++
    (if marks.delayed then ["TOPO_DELAY"] else [])

/-- The marks as one text. -/
def display (marks : Marks) : String :=
  if marks.names.isEmpty then "NONE" else String.intercalate "|" marks.names

end Marks

/-- In which order a walk gives commits out. Without either it is by time, latest
first. -/
structure Order where
  /-- No commit before its descendants. -/
  topological : Bool := false
  /-- Back to front. -/
  reversed : Bool := false
  deriving DecidableEq, Repr, Inhabited

namespace Order

/-- All commits must be known before the first is given out. -/
def needsAll (order : Order) : Bool := order.topological || order.reversed

/-- The names of what is asked for. -/
def names (order : Order) : List String :=
  (if order.topological then ["TOPO"] else []) ++ (if order.reversed then ["REVERSE"] else [])

/-- The order as one text. -/
def display (order : Order) : String :=
  if order.names.isEmpty then "0x0" else String.intercalate " | " order.names

end Order

end Ancestry
