import Ancestry.Source

/-!
# Objects in memory

Stored forms by identifier. What is stored first under an identifier stays.
-/

namespace Ancestry

/-- Stored forms by identifier. -/
structure MemoryStore where
  forms : Std.TreeMap ObjectId Bytes := ∅

namespace MemoryStore

instance : Inhabited MemoryStore := ⟨{}⟩

/-- Keeps a stored form under an identifier, unless there is one. -/
def insert (store : MemoryStore) (id : ObjectId) (form : Bytes) : MemoryStore :=
  ⟨store.forms.insertIfNew id form⟩

/-- Keeps an object under its own identifier. -/
def add (store : MemoryStore) (object : Object) : MemoryStore :=
  store.insert object.id object.frame

/-- Keeps objects one after the other and gives back their identifiers. -/
def storeAll : MemoryStore → List Object → List ObjectId × MemoryStore
  | store, [] => ([], store)
  | store, object :: objects =>
    match (store.add object).storeAll objects with
    | (others, last) => (object.id :: others, last)

/-- Something is kept under an identifier. -/
def contains (store : MemoryStore) (id : ObjectId) : Bool := store.forms.contains id

/-- Reads what is kept under an identifier. -/
def read (store : MemoryStore) (id : ObjectId) : Except Fault Object :=
  match store.forms[id]? with
  | some form => Source.ofStored id form
  | none => .error (.objectMissing id)

/-- The store as a source. -/
def source (store : MemoryStore) : Source := ⟨store.read⟩

/-- Identifiers whose digits begin with a text, whose case does not count. They are in ascending
order here; a table without an order would give them in any other, so that only the set of them
means anything. -/
def beginningWith (store : MemoryStore) (text : String) : List ObjectId :=
  store.forms.keys.filter fun id => (text.toLower.toList).isPrefixOf id.hexChars

end MemoryStore

end Ancestry
