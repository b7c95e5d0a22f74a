import Ancestry.Graph
import Ancestry.Repository.Basic
import Ancestry.Revision.Basic

/-!
# Resolving revisions

A name is looked for among references first. What is no reference may be an identifier
of forty digits, or four and more digits with which the identifier of a single commit
begins. A step leads to the first parent, which must exist.
-/

namespace Ancestry.Repository

/-- Least number of digits that stand for an identifier. -/
def leastDigits : Nat := 4

/-- Characters that may stand for an identifier. -/
def areDigits (chars : List Char) : Bool :=
  leastDigits ≤ chars.length && chars.length ≤ 40 && chars.all ObjectId.isHex

/-- The text that lists commits between which digits do not decide. -/
def ambiguity (digits : String) (candidates : List ObjectId) : String :=
  "short SHA1 " ++ digits ++ " is ambiguous\nhint: The candidates are:" ++
    String.join (candidates.map fun id => "\nhint:   " ++ id.short ++ " commit")

/-- The commits whose identifiers begin with some digits. -/
def commitsBeginningWith (repository : Repository) (digits : String) :
    Except Failure (List ObjectId) :=
  match LooseStore.beginningWith repository.objectsPath repository.files digits with
  | .error fault => .error (.fault fault)
  | .ok ids =>
    .ok (ids.filter fun id =>
      match repository.source.kind id with
      | .ok kind => kind = .commit
      | .error _ => false)

/-- The commit that digits stand for. Forty digits are not looked up. -/
def resolveDigits (repository : Repository) (digits : String) : Except Failure ObjectId :=
  if digits.length = 40 then
    (ObjectId.parse digits).mapError fun fault => .ofText fault.message
  else
    match repository.commitsBeginningWith digits with
    | .error failure => .error failure
    | .ok [] => .error (.fault (.unknownRevision digits))
    | .ok [id] => .ok id
    | .ok candidates => .error (.ofText (ambiguity digits candidates))

/-- The commit of a name. -/
def resolveName (repository : Repository) (name : BranchName) : Except Failure ObjectId :=
  match RefFiles.read repository.dataPath repository.files name.text with
  | .error failure => .error failure
  | .ok (some id) => .ok id
  | .ok none =>
    if areDigits name.text.toList then repository.resolveDigits name.text
    else .error (.fault (.unknownRevision name.text))

/-- The first parent of a commit, on the way to a revision. -/
def firstParent (source : Source) (sought : Revision) (id : ObjectId) (graph : Graph) :
    Except Failure ObjectId × Graph :=
  match graph.resolve source id with
  | (.error fault, graph) => (.error (.fault fault), graph)
  | (.ok node, graph) =>
    match node.parents with
    | [] => (.error (.fault (.unknownRevision sought.display)), graph)
    | parent :: _ => (.ok parent, graph)

/-- The first parent of the first parent, and so on. -/
def generationsBack (source : Source) (sought : Revision) : (generations : Nat) → ObjectId →
    Graph → Except Failure ObjectId × Graph
  | 0, id, graph => (.ok id, graph)
  | generations + 1, id, graph =>
    match firstParent source sought id graph with
    | (.error failure, graph) => (.error failure, graph)
    | (.ok parent, graph) => generationsBack source sought generations parent graph

/-- The commit that a revision names. -/
def resolve (repository : Repository) : Revision → Graph → Except Failure ObjectId × Graph
  | .name branch, graph => (repository.resolveName branch, graph)
  | .parent base, graph =>
    match repository.resolve base graph with
    | (.error failure, graph) => (.error failure, graph)
    | (.ok id, graph) => firstParent repository.source (.parent base) id graph
  | .ancestor base generations, graph =>
    match repository.resolve base graph with
    | (.error failure, graph) => (.error failure, graph)
    | (.ok id, graph) =>
      generationsBack repository.source (.ancestor base generations) generations id graph

end Ancestry.Repository
