import Std.Data.HashMap
import Ancestry.Machine.Assembly
import Ancestry.Machine.Encoding

/-!
# States for sets of characters

A set beyond ASCII takes states for the bytes of its characters. States that would be
equal are used again, as far as they are found: each has a slot by its hash, and a slot
remembers only the last state that was put into it. Forward, sequences that begin alike
share their first states until they part, and a state is added when nothing more can
begin with it. Backward, every sequence is a branch of a fork, and sequences that begin
alike share what leads to the end.
-/

namespace Ancestry.Machine

/-- A transition of a state: on bytes of a range to a state. -/
structure Transition where
  range : ByteRange
  next : Nat
  deriving DecidableEq, Repr, Inhabited

/-- States by slot. -/
structure Slots (κ : Type) where
  entries : Std.HashMap Nat (κ × Nat) := ∅

namespace Slots

/-- Mixes a number into a hash. -/
def mix (hash number : UInt64) : UInt64 := (hash ^^^ number) * 1099511628211

/-- The hash of nothing. -/
def seed : UInt64 := 14695981039346656037

/-- The slot of a hash, of so many. -/
def slotOf (hash : UInt64) (count : UInt64) : Nat := (hash % count).toNat

/-- The state in a slot, if it is the one that is looked for. -/
def find? {κ : Type} [DecidableEq κ] (slots : Slots κ) (slot : Nat) (key : κ) : Option Nat :=
  match slots.entries[slot]? with
  | some (found, state) => if found = key then some state else none
  | none => none

/-- Puts a state into its slot. -/
def put {κ : Type} (slots : Slots κ) (slot : Nat) (key : κ) (state : Nat) : Slots κ :=
  ⟨slots.entries.insert slot (key, state)⟩

end Slots

/-- Puts states together that are looked up in slots. -/
abbrev SlotAssembly (κ : Type) := StateT (Slots κ) Assembly

namespace Forward

/-- The slot of a state by its transitions. -/
def slot (transitions : List Transition) : Nat :=
  Slots.slotOf
    (transitions.foldl (fun hash transition =>
      Slots.mix (Slots.mix (Slots.mix hash transition.range.first.toUInt64)
        transition.range.last.toUInt64) transition.next.toUInt64) Slots.seed)
    10000

/-- The state with some transitions, which is added unless it is found. -/
def state (transitions : List Transition) : SlotAssembly (List Transition) Nat := do
  let slot := slot transitions
  match (← get).find? slot transitions with
  | some found => return found
  | none => do
    let added ← Assembly.addTransitions transitions.length
    modify fun slots => slots.put slot transitions added
    return added

/-- A state to be: its finished transitions, last one first, and the range of the one
whose end is not known yet. -/
structure Draft where
  finished : List Transition := []
  unfinished : Option ByteRange := none
  deriving DecidableEq, Repr, Inhabited

/-- Finishes the last transition. -/
def Draft.finish (draft : Draft) (next : Nat) : Draft :=
  match draft.unfinished with
  | none => draft
  | some range => { finished := ⟨range, next⟩ :: draft.finished }

/-- The state of a draft. -/
def Draft.state (draft : Draft) : SlotAssembly (List Transition) Nat :=
  Forward.state draft.finished.reverse

/-- Adds the states of drafts, each of which leads to the next and the last one to
`target`, and gives the first. -/
def close (target : Nat) : List Draft → SlotAssembly (List Transition) Nat
  | [] => return target
  | draft :: deeper => do
    let next ← close target deeper
    (draft.finish next).state

/-- The drafts of a sequence that begins like no other. -/
def draftsOf (ranges : Sequence) : List Draft :=
  ranges.map fun range => { unfinished := some range }

/-- Takes up a sequence. Where it parts from the one before, the states that only that
one needed are added. -/
def takeUp (target : Nat) : List Draft → Sequence → SlotAssembly (List Transition) (List Draft)
  | draft :: deeper, range :: ranges => do
    if draft.unfinished = some range then return draft :: (← takeUp target deeper ranges)
    else do
      let next ← close target deeper
      return { draft.finish next with unfinished := some range } :: draftsOf ranges
  | _, ranges => return draftsOf ranges

/-- Takes up sequences one after another. -/
def takeUpAll (target : Nat) : List Draft → List Sequence →
    SlotAssembly (List Transition) (List Draft)
  | drafts, [] => return drafts
  | drafts, ranges :: more => do
    let drafts ← takeUp target drafts ranges
    takeUpAll target drafts more

/-- Adds the states of a set. -/
def addSet (sequences : List Sequence) : Assembly Unit := do
  let target ← Assembly.add
  let _ ← (do
    let drafts ← takeUpAll target [{}] sequences
    close target drafts).run {}

end Forward

namespace Backward

/-- A state by the state that it leads to and the range of its only transition. -/
abbrev Key := Nat × ByteRange

/-- The slot of a state. -/
def slot (key : Key) : Nat :=
  Slots.slotOf
    (Slots.mix (Slots.mix (Slots.mix Slots.seed key.1.toUInt64) key.2.first.toUInt64)
      key.2.last.toUInt64)
    1000

/-- Adds the states of a sequence before a state, as far as they are not found. -/
def addBefore : (next : Nat) → Sequence → SlotAssembly Key Unit
  | _, [] => return ()
  | next, range :: ranges => do
    let key := (next, range)
    let slot := slot key
    match (← get).find? slot key with
    | some found => addBefore found ranges
    | none => do
      let added ← Assembly.add
      modify fun slots => slots.put slot key added
      addBefore added ranges

/-- Adds the states of sequences before a state, each as a branch of a fork. -/
def addBranches (next : Nat) : List Sequence → SlotAssembly Key Unit
  | [] => return ()
  | ranges :: more => do
    addBefore next ranges
    Assembly.fork 1
    addBranches next more

/-- Adds the states of a set. -/
def addSet (sequences : List Sequence) : Assembly Unit := do
  let _ ← Assembly.add
  let target ← Assembly.add
  let _ ← (addBranches target sequences).run {}

end Backward

/-- Adds a state for one byte of so many ranges, and one behind it. -/
def addRanges (count : Nat) : Assembly Unit := do
  let _ ← Assembly.add
  let _ ← Assembly.addTransitions count

/-- Adds the states of a set. -/
def addSet (backward : Bool) (sequences : List Sequence) : Assembly Unit :=
  if sequences.all (·.all (·.last ≤ 0x7F)) then addRanges sequences.length
  else if backward then Backward.addSet sequences
  else Forward.addSet sequences

end Ancestry.Machine
