import Ancestry.Machine.Outline
import Ancestry.Machine.Sets
import Ancestry.Machine.Words

/-!
# Machines for patterns

A pattern has a machine that reads forward and one that reads backward. Both are put
together from the pattern's outline: a repetition is written out as often as it asks
for. A pattern fits when neither machine takes too much room. A very long list of words
needs no machine.

What is put together may end in a fork, to which going on adds a link; each function here
says so of its result.
-/

namespace Ancestry.Machine

/-- An outline whose sets are byte sequences. -/
abbrev Plan := Outline (List Sequence)

mutual

/-- Whether a byte belongs to every stretch; nothing is said of what matches none. -/
def takesByte? : Plan → Option Bool
  | .empty => some false
  | .word _ => some true
  | .set sequences => if sequences.isEmpty then none else some true
  | .look _ => some false
  | .repeated inner least _ _ => (takesByte? inner).map (least != 0 && ·)
  | .group inner => takesByte? inner
  | .sequence parts => partsTakeByte? parts
  | .choice branches => branchesTakeByte? branches

/-- Whether a byte belongs to every stretch of some parts side by side. -/
def partsTakeByte? : List Plan → Option Bool
  | [] => some false
  | part :: rest => do return (← takesByte? part) || (← partsTakeByte? rest)

/-- Whether a byte belongs to every stretch of each of some branches. -/
def branchesTakeByte? : List Plan → Option Bool
  | [] => some true
  | branch :: rest => do return (← takesByte? branch) && (← branchesTakeByte? rest)

end

/-- The bytes of a word. -/
def wordBytes (chars : List Char) : List UInt8 := chars.flatMap String.utf8EncodeChar

/-- The words of outlines that are all words. -/
def words? (branches : List Plan) : Option (List (List UInt8)) :=
  branches.mapM fun
    | .word chars => some (wordBytes chars)
    | _ => none

/-- The same thing so many times more, behind something that may end in a fork. -/
def more (step : Assembly Bool) : (count : Nat) → (behind : Bool) → Assembly Bool
  | 0, behind => return behind
  | count + 1, behind => do
    let next ← step
    Assembly.goOn behind
    more step count next

/-- The same thing so many times. -/
def exactly (step : Assembly Bool) : (count : Nat) → Assembly Bool
  | 0 => do
    let _ ← Assembly.add
    return false
  | count + 1 => do
    let first ← step
    more step count first

/-- Up to so many times more, each behind a fork that may also leave. -/
def optionally (step : Assembly Bool) : (count : Nat) → (behind : Bool) → Assembly Bool
  | 0, behind => return behind
  | count + 1, behind => do
    let _ ← Assembly.add
    let next ← step
    Assembly.goOn behind
    Assembly.fork 2
    optionally step count next

/-- At least so many times. What may be repeated from the start and takes a byte each
time needs only one fork. -/
def atLeast (step : Assembly Bool) (takesByte : Bool) : (least : Nat) → Assembly Bool
  | 0 =>
    if takesByte then do
      let _ ← Assembly.add
      let inner ← step
      Assembly.fork 1
      Assembly.goOn inner
      return true
    else do
      let inner ← step
      Assembly.addMany 3
      Assembly.goOn inner
      Assembly.fork 4
      return false
  | 1 => do
    let inner ← step
    let _ ← Assembly.add
    Assembly.goOn inner
    Assembly.fork 1
    return true
  | least + 2 => do
    let front ← exactly step (least + 1)
    let last ← step
    let _ ← Assembly.add
    Assembly.goOn front
    Assembly.goOn last
    Assembly.fork 1
    return true

/-- A repetition. -/
def repeatedly (step : Assembly Bool) (takesByte : Bool) (least : Nat) (most : Option Nat) :
    Assembly Bool :=
  match most with
  | none => atLeast step takesByte least
  | some most =>
    if least = 0 ∧ most = 1 then do
      let _ ← Assembly.add
      let inner ← step
      let _ ← Assembly.add
      Assembly.fork 2
      Assembly.goOn inner
      return false
    else if least = most then exactly step least
    else do
      let front ← exactly step least
      let _ ← Assembly.add
      let last ← optionally step (most - least) front
      Assembly.goOn last
      return false

mutual

/-- Puts an outline together. Reading backward remembers no ends of groups. -/
def addOutline (backward : Bool) : Plan → Assembly Bool
  | .empty => do
    let _ ← Assembly.add
    return false
  | .word chars => do
    Assembly.addMany (wordBytes chars).length
    return false
  | .set sequences => do
    addSet backward sequences
    return false
  | .look _ => do
    let _ ← Assembly.add
    return false
  | .repeated inner least most _ =>
    repeatedly (addOutline backward inner) (takesByte? inner == some true) least most
  | .group inner =>
    if backward then addOutline backward inner
    else do
      let _ ← Assembly.add
      let ends ← addOutline backward inner
      let _ ← Assembly.add
      Assembly.goOn ends
      return false
  | .sequence parts => if backward then addBackward parts else addForward none parts
  | .choice branches =>
    match words? branches with
    | some words => do
      addWords (if backward then words.map List.reverse else words)
      return false
    | none => addChoice backward branches

/-- Puts parts together, first one first, behind what may end in a fork if there is
something. -/
def addForward (behind : Option Bool) : List Plan → Assembly Bool
  | [] => return behind.getD false
  | part :: rest => do
    let next ← addOutline false part
    Assembly.goOn (behind.getD false)
    addForward (some next) rest

/-- Puts parts together, last one first. -/
def addBackward : List Plan → Assembly Bool
  | [] => return false
  | part :: rest => do
    let behind ← addBackward rest
    let next ← addOutline true part
    Assembly.goOn behind
    return next

/-- Puts branches together behind a fork, which is added with the state where they meet
when the second branch is there. -/
def addChoice (backward : Bool) : List Plan → Assembly Bool
  | [] => return false
  | first :: rest => do
    let ends ← addOutline backward first
    addFurther backward (some ends) rest

/-- Puts further branches together, the first of them behind one that is still to be
linked. -/
def addFurther (backward : Bool) (waiting : Option Bool) : List Plan → Assembly Bool
  | [] => return false
  | branch :: rest => do
    let ends ← addOutline backward branch
    match waiting with
    | none => pure ()
    | some first => do
      Assembly.addMany 2
      Assembly.fork 1
      Assembly.goOn first
    Assembly.fork 1
    Assembly.goOn ends
    addFurther backward none rest

end

/-- Puts a whole machine together. Unless matches are bound to the place where reading
begins, it may pass bytes before a match. -/
def addMachine (backward : Bool) (bound : Bool) (plan : Plan) : Assembly Unit := do
  let passes ←
    if bound then exactly (return false) 0
    else atLeast (do addRanges 1; return false) true 0
  let ends ← if backward then addOutline true plan else addOutline false (.group plan)
  let _ ← Assembly.add
  Assembly.goOn ends
  Assembly.goOn passes

/-- So many words to choose from are searched for without a machine. -/
def wordsWithoutMachine : Nat := 3000

/-- A choice between very many words and nothing else. -/
def isLongWordList : Plan → Bool
  | .choice branches => (words? branches).any (wordsWithoutMachine ≤ ·.length)
  | _ => false

/-- Both machines of an outline take little enough room, or none is needed. -/
def fits (outline : Outline CharSet) : Bool :=
  let plan := outline.map sequences
  isLongWordList plan ||
    (((addMachine false (outline.demands .textStart false) plan).run {}).isSome &&
      ((addMachine true (outline.demands .textEnd true) plan).run {}).isSome)

end Ancestry.Machine
