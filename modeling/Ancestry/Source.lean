import Ancestry.Fault

/-!
# Sources of objects

A source answers an identifier with an object or a fault. What an object must be for a
use is said here once: a commit for its header, its message and the commit itself; a
tree, or a commit that stands for its tree, for entries.
-/

namespace Ancestry

/-- Something that objects are read from. -/
structure Source where
  read : ObjectId → Except Fault Object

namespace Source

/-- The object of a stored form, as kept under an identifier. -/
def ofStored (id : ObjectId) (bytes : Bytes) : Except Fault Object :=
  (Object.ofFrame bytes).mapError fun fault => .malformed id (.frame fault)

/-- The kind of an object. -/
def kind (source : Source) (id : ObjectId) : Except Fault Kind := (source.read id).map (·.kind)

/-- The payload of an object. -/
def payload (source : Source) (id : ObjectId) : Except Fault Bytes :=
  (source.read id).map (·.payload)

/-- The payload of an object of one kind. -/
def payloadOf (source : Source) (expected : Kind) (id : ObjectId) : Except Fault Bytes :=
  match source.read id with
  | .error fault => .error fault
  | .ok object =>
    if object.kind = expected then .ok object.payload
    else .error (.kindMismatch id expected object.kind)

/-- Reads a payload as something of a commit. -/
def readCommit {α : Type} (source : Source) (reader : Bytes → Except CommitFault α)
    (id : ObjectId) : Except Fault α :=
  match source.payloadOf .commit id with
  | .error fault => .error fault
  | .ok bytes => (reader bytes).mapError fun fault => .malformed id (.commit fault)

/-- A commit. -/
def commit (source : Source) (id : ObjectId) : Except Fault Commit :=
  source.readCommit Commit.parse id

/-- The header of a commit. -/
def header (source : Source) (id : ObjectId) : Except Fault CommitHeader :=
  source.readCommit CommitHeader.parse id

/-- The message of a commit. -/
def message (source : Source) (id : ObjectId) : Except Fault String :=
  (source.payloadOf .commit id).map Commit.readMessage

/-- Entries of a tree, or of the tree behind at most `most` commits that stand for
one another's tree. -/
def entriesWithin (source : Source) : (most : Nat) → ObjectId → Except Fault TreeEntries
  | most, id =>
    match source.read id with
    | .error fault => .error fault
    | .ok ⟨.tree, bytes⟩ => (Tree.parse bytes).mapError fun fault => .malformed id (.tree fault)
    | .ok ⟨.commit, bytes⟩ =>
      match CommitHeader.parse bytes with
      | .error fault => .error (.malformed id (.commit fault))
      | .ok header =>
        match most with
        | 0 => .error (.kindMismatch id .tree .commit)
        | most + 1 => source.entriesWithin most header.tree
    | .ok ⟨kind, _⟩ => .error (.kindMismatch id .tree kind)

/-- Entries of a tree; a commit stands for its tree. There are no more commits in a row
than identifiers. -/
def entries (source : Source) (id : ObjectId) : Except Fault TreeEntries :=
  source.entriesWithin ObjectId.total id

end Source

end Ancestry
