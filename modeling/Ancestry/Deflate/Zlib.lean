import Ancestry.Deflate.Inflate

/-!
# Compressed streams with a checksum

Two bytes in front name the method and the size of the window and are a multiple of 31
together; four bytes behind hold a checksum of what the stream expands to. What follows
them does not count. Packing puts the bytes into blocks as they are, and unpacking
accepts every stream.
-/

namespace Ancestry.Zlib

/-- The modulus of the checksum. -/
def modulus : Nat := 65521

/-- Two running sums of the bytes, the second one of the first one's values. -/
def checksum (bytes : Bytes) : Nat :=
  let (first, second) := bytes.foldl (fun (first, second) byte =>
    let first := (first + byte.toNat) % modulus
    (first, (second + first) % modulus)) (1, 0)
  second * 65536 + first

/-- The method is the only one there is, the window is at most 32 KiB, and no
dictionary is presumed. -/
def headerHolds (method flags : UInt8) : Bool :=
  (method.toNat * 256 + flags.toNat) % 31 == 0 && method.toNat % 16 == 8 &&
    method.toNat / 16 ≤ 7 && flags.toNat / 32 % 2 == 0

/-- A number as four bytes, the highest first. -/
def quad (value : Nat) : Bytes :=
  [UInt8.ofNat (value / 16777216), UInt8.ofNat (value / 65536 % 256),
    UInt8.ofNat (value / 256 % 256), UInt8.ofNat (value % 256)]

/-- The bytes that a stream expands to. -/
def unpack? : Bytes → Option Bytes
  | method :: flags :: rest =>
    if headerHolds method flags then
      match Deflate.inflate rest with
      | some (bytes, behind) => if behind.take 4 = quad (checksum bytes) then some bytes else none
      | none => none
    else none
  | _ => none

/-- Greatest number of bytes in a block. -/
def blockBound : Nat := 65535

/-- A block that holds at most `blockBound` bytes as they are. -/
def storedBlock (last : Bool) (bytes : Bytes) : Bytes :=
  let count := bytes.length
  let opposite := blockBound - count
  [if last then 1 else 0, UInt8.ofNat (count % 256), UInt8.ofNat (count / 256),
    UInt8.ofNat (opposite % 256), UInt8.ofNat (opposite / 256)] ++ bytes

/-- Blocks that hold some bytes as they are, after `most` full ones the rest. -/
def storedBlocks : (most : Nat) → Bytes → Bytes
  | 0, bytes => storedBlock true bytes
  | most + 1, bytes =>
    storedBlock false (bytes.take blockBound) ++ storedBlocks most (bytes.drop blockBound)

/-- A stream that expands to some bytes. -/
def pack (bytes : Bytes) : Bytes :=
  [0x78, 0x01] ++ storedBlocks (bytes.length / blockBound) bytes ++ quad (checksum bytes)

end Ancestry.Zlib
