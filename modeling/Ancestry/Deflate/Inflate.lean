import Ancestry.Deflate.Code

/-!
# Expanding deflated blocks

A stream is a sequence of blocks, the last of which is marked. A block holds bytes as
they are, or symbols of a fixed code, or symbols of a code that stands in front of it.
A symbol is a byte, the end of the block, or a length, which a distance follows: that
many bytes are repeated from so far back. Before the first byte stand zeros.
-/

namespace Ancestry.Deflate

/-- Base and number of extra bits of the lengths, from symbol 257 on. -/
def lengthTable : List (Nat × Nat) :=
  [(3, 0), (4, 0), (5, 0), (6, 0), (7, 0), (8, 0), (9, 0), (10, 0), (11, 1), (13, 1), (15, 1),
    (17, 1), (19, 2), (23, 2), (27, 2), (31, 2), (35, 3), (43, 3), (51, 3), (59, 3), (67, 4),
    (83, 4), (99, 4), (115, 4), (131, 5), (163, 5), (195, 5), (227, 5), (258, 0)]

/-- Base and number of extra bits of the distances. -/
def distanceTable : List (Nat × Nat) :=
  [(1, 0), (2, 0), (3, 0), (4, 0), (5, 1), (7, 1), (9, 2), (13, 2), (17, 3), (25, 3), (33, 4),
    (49, 4), (65, 5), (97, 5), (129, 6), (193, 6), (257, 7), (385, 7), (513, 8), (769, 8),
    (1025, 9), (1537, 9), (2049, 10), (3073, 10), (4097, 11), (6145, 11), (8193, 12),
    (12289, 12), (16385, 13), (24577, 13)]

/-- A number whose base and extra bits stand in a table. -/
def tabled? (table : List (Nat × Nat)) (symbol : Nat) (bits : Bits) : Option (Nat × Bits) := do
  let (base, extra) ← table[symbol]?
  let (value, bits) ← bits.number? extra
  return (base + value, bits)

/-- Repeats `count` bytes from `distance` back. Repeated bytes may be repeated again. -/
def repeatBytes (distance : Nat) : (count : Nat) → Array UInt8 → Array UInt8
  | 0, out => out
  | count + 1, out =>
    let byte := if distance ≤ out.size then out.getD (out.size - distance) 0 else 0
    repeatBytes distance count (out.push byte)

/-- Expands symbols up to the end of the block. Every symbol takes a bit, so as many
symbols as there are bits are enough. -/
def expandSymbols (literals distances : Code) :
    (most : Nat) → Bits → Array UInt8 → Option (Array UInt8 × Bits)
  | 0, _, _ => none
  | most + 1, bits, out => do
    let (symbol, bits) ← literals.read bits
    if symbol < 256 then expandSymbols literals distances most bits (out.push (UInt8.ofNat symbol))
    else if symbol = 256 then return (out, bits)
    else
      let (length, bits) ← tabled? lengthTable (symbol - 257) bits
      let (place, bits) ← distances.read bits
      let (distance, bits) ← tabled? distanceTable place bits
      expandSymbols literals distances most bits (repeatBytes distance length out)

/-- Lengths of the fixed code of bytes and lengths. -/
def fixedLiterals : List Nat :=
  List.replicate 144 8 ++ List.replicate 112 9 ++ List.replicate 24 7 ++ List.replicate 8 8

/-- Lengths of the fixed code of distances. -/
def fixedDistances : List Nat := List.replicate 32 5

/-- The order in which the lengths of the code of lengths are written. -/
def lengthOrder : List Nat := [16, 17, 18, 0, 8, 7, 9, 6, 10, 5, 11, 4, 12, 3, 13, 2, 14, 1, 15]

/-- Reads `count` numbers of three bits. -/
def readTriples : (count : Nat) → Bits → Option (List Nat × Bits)
  | 0, bits => some ([], bits)
  | count + 1, bits => do
    let (value, bits) ← bits.number? 3
    let (rest, bits) ← readTriples count bits
    return (value :: rest, bits)

/-- Reads code lengths until there are `wanted`, which a repetition must not pass. The
lengths so far are in reverse. -/
def readLengths (code : Code) (wanted : Nat) :
    (most : Nat) → List Nat → Bits → Option (List Nat × Bits)
  | 0, _, _ => none
  | most + 1, done, bits =>
    if done.length = wanted then some (done.reverse, bits)
    else if wanted < done.length then none
    else do
      let (symbol, bits) ← code.read bits
      if symbol < 16 then readLengths code wanted most (symbol :: done) bits
      else if symbol = 16 then
        let last ← done.head?
        let (more, bits) ← bits.number? 2
        readLengths code wanted most (List.replicate (3 + more) last ++ done) bits
      else if symbol = 17 then
        let (more, bits) ← bits.number? 3
        readLengths code wanted most (List.replicate (3 + more) 0 ++ done) bits
      else
        let (more, bits) ← bits.number? 7
        readLengths code wanted most (List.replicate (11 + more) 0 ++ done) bits

/-- Reads the two codes in front of a block. -/
def readCodes (bits : Bits) : Option (Code × Code × Bits) := do
  let (literalCount, bits) ← bits.number? 5
  let (distanceCount, bits) ← bits.number? 5
  let (orderCount, bits) ← bits.number? 4
  let literalCount := literalCount + 257
  let distanceCount := distanceCount + 1
  if 286 < literalCount ∨ 30 < distanceCount then none
  else
    let (triples, bits) ← readTriples (orderCount + 4) bits
    let given := lengthOrder.zip triples
    let code ← Code.ofLengths? ((List.range 19).map fun symbol => (given.lookup symbol).getD 0)
    let (lengths, bits) ←
      readLengths code (literalCount + distanceCount) (literalCount + distanceCount + 1) [] bits
    let literals ← Code.ofLengths? (lengths.take literalCount)
    let distances ← Code.ofLengths? (lengths.drop literalCount)
    return (literals, distances, bits)

/-- A number of two bytes, the lower one first. -/
def pair (low high : UInt8) : Nat := low.toNat + 256 * high.toNat

/-- Takes the bytes of a block that holds them as they are. Their number is written
twice, the second time with all bits inverted. -/
def expandStored (bytes : Bytes) (out : Array UInt8) : Option (Array UInt8 × Bits) :=
  match bytes with
  | a :: b :: c :: d :: rest =>
    let count := pair a b
    if count + pair c d = 65535 ∧ count ≤ rest.length then
      some (out ++ (rest.take count).toArray, Bits.ofBytes (rest.drop count))
    else none
  | _ => none

/-- Expands blocks up to the marked one, at most `most`. -/
def expandBlocks : (most : Nat) → Bits → Array UInt8 → Option (Array UInt8 × Bits)
  | 0, _, _ => none
  | most + 1, bits, out => do
    let (last, bits) ← bits.next?
    let (form, bits) ← bits.number? 2
    let (out, bits) ←
      if form = 0 then expandStored bits.aligned out
      else if form = 1 then do
        let literals ← Code.ofLengths? fixedLiterals
        let distances ← Code.ofLengths? fixedDistances
        expandSymbols literals distances (8 * bits.bytes.length + 1) bits out
      else if form = 2 then do
        let (literals, distances, bits) ← readCodes bits
        expandSymbols literals distances (8 * bits.bytes.length + 1) bits out
      else none
    if last then return (out, bits) else expandBlocks most bits out

/-- The bytes of a stream and those that follow it. -/
def inflate (bytes : Bytes) : Option (Bytes × Bytes) := do
  let (out, bits) ← expandBlocks (8 * bytes.length + 1) (Bits.ofBytes bytes) #[]
  return (out.toList, bits.aligned)

end Ancestry.Deflate
