import Ancestry.Text.Utf8

/-!
# Bits and canonical codes

A byte holds eight bits, least significant first. A code gives every symbol a string of
bits; it is known from the lengths alone, because codes of one length are consecutive
numbers in the order of their symbols and shorter codes come before longer ones.
-/

namespace Ancestry.Deflate

/-- Bytes of whose first one `used` bits are taken. -/
structure Bits where
  used : Nat
  bytes : Bytes
  deriving DecidableEq, Repr

namespace Bits

/-- All bits of some bytes. -/
def ofBytes (bytes : Bytes) : Bits := ⟨0, bytes⟩

/-- The next bit. -/
def next? (bits : Bits) : Option (Bool × Bits) :=
  match bits.bytes with
  | [] => none
  | byte :: rest =>
    some (byte.toNat.testBit bits.used,
      if bits.used = 7 then ⟨0, rest⟩ else ⟨bits.used + 1, byte :: rest⟩)

/-- A number of `count` bits, least significant first. -/
def number? (bits : Bits) : (count : Nat) → Option (Nat × Bits)
  | 0 => some (0, bits)
  | count + 1 => do
    let (bit, bits) ← bits.next?
    let (rest, bits) ← bits.number? count
    return (2 * rest + bit.toNat, bits)

/-- The bytes after the one that is partly taken. -/
def aligned (bits : Bits) : Bytes := if bits.used = 0 then bits.bytes else bits.bytes.drop 1

end Bits

/-- A code: the symbols of each length in order, from length one on. -/
structure Code where
  groups : List (List Nat)
  deriving DecidableEq, Repr

namespace Code

/-- Greatest length of a code. -/
def longest : Nat := 15

/-- The symbols whose length is `length`. -/
def symbolsOf (lengths : List Nat) (length : Nat) : List Nat :=
  (lengths.zipIdx.filter fun (own, _) => own = length).map (·.2)

/-- Share of all strings of `longest` bits that the codes of some lengths take up, and
the number of codes. -/
def measure (groups : List (List Nat)) : Nat × Nat :=
  groups.zipIdx.foldl (fun (share, used) (group, place) =>
    (share + group.length * Nat.pow 2 (longest - 1 - place), used + group.length)) (0, 0)

/-- The code of the given lengths, where zero means that a symbol has none. The codes
must take up all strings, unless there is at most one. -/
def ofLengths? (lengths : List Nat) : Option Code :=
  let groups := (List.range longest).map fun place => symbolsOf lengths (place + 1)
  match measure groups with
  | (share, used) => if share = Nat.pow 2 longest ∨ used ≤ 1 then some ⟨groups⟩ else none

/-- Reads a symbol, where `value` is the number that the bits so far make and `first`
that of the first code of this length. -/
def readFrom : List (List Nat) → (value first : Nat) → Bits → Option (Nat × Bits)
  | [], _, _, _ => none
  | group :: longer, value, first, bits =>
    match bits.next? with
    | none => none
    | some (bit, bits) =>
      let value := 2 * value + bit.toNat
      match group[value - first]? with
      | some symbol => some (symbol, bits)
      | none => readFrom longer value (2 * (first + group.length)) bits

/-- Reads a symbol. -/
def read (code : Code) (bits : Bits) : Option (Nat × Bits) := readFrom code.groups 0 0 bits

end Code

end Ancestry.Deflate
