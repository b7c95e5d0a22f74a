/-!
# Room of a machine

A machine is put together from states, which are numbered as they are added. Every state
takes the same room; transitions of a state that has several take more, and so do the
links of a fork. Putting a machine together fails as soon as it takes too much.
-/

namespace Ancestry.Machine

/-- What has been put together: how many states, and how many bytes besides them. -/
structure Room where
  states : Nat := 0
  extra : Nat := 0
  deriving DecidableEq, Repr, Inhabited

namespace Room

/-- Bytes of a state. -/
def stateBytes : Nat := 32

/-- Bytes of one of several transitions. -/
def transitionBytes : Nat := 8

/-- Bytes of a link of a fork. -/
def linkBytes : Nat := 4

/-- Most bytes that a machine may take. -/
def bound : Nat := 10 * Nat.pow 2 20

/-- Bytes taken. -/
def bytes (room : Room) : Nat := stateBytes * room.states + room.extra

/-- The room, unless it is too much. -/
def checked (room : Room) : Option Room := if room.bytes ≤ bound then some room else none

end Room

/-- Puts something together, in the room that is left. -/
abbrev Assembly := StateT Room Option

namespace Assembly

/-- Adds a state with some extra bytes and gives its number. -/
def addWith (extra : Nat) : Assembly Nat := fun room =>
  ({ states := room.states + 1, extra := room.extra + extra } : Room).checked.map (room.states, ·)

/-- Adds a state. -/
def add : Assembly Nat := addWith 0

/-- Adds states. -/
def addMany : (count : Nat) → Assembly Unit
  | 0 => return ()
  | count + 1 => do
    let _ ← add
    addMany count

/-- Adds a state with several transitions. -/
def addTransitions (count : Nat) : Assembly Nat := addWith (Room.transitionBytes * count)

/-- Links a fork to so many states. -/
def fork (links : Nat) : Assembly Unit := fun room =>
  ({ room with extra := room.extra + Room.linkBytes * links } : Room).checked.map ((), ·)

/-- Goes on behind something, which takes a link if it ends in a fork. -/
def goOn (endsInFork : Bool) : Assembly Unit := if endsInFork then fork 1 else return ()

end Assembly

end Ancestry.Machine
