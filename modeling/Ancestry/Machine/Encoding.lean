import Ancestry.Unicode.CharSet

/-!
# Byte sequences of characters

A set of characters is a list of sequences of byte ranges: a character belongs to the
set when the bytes that encode it lie in the ranges of one of the sequences. Characters
of different lengths go into different sequences, and so do characters whose bytes do
not range independently of each other.
-/

namespace Ancestry.Machine

/-- The bytes from `first` to `last`, both included. -/
structure ByteRange where
  first : UInt8
  last : UInt8
  deriving DecidableEq, Repr, Inhabited

/-- Ranges for the bytes of a character, one behind another. -/
abbrev Sequence := List ByteRange

/-- The code points that are no characters. -/
def surrogates : CharSet := .interval 0xD800 0xDFFF

/-- Cuts a range behind a code point. -/
def cutBehind (point : Nat) (range : CharRange) : List CharRange :=
  if range.first ≤ point ∧ point < range.last then [⟨range.first, point⟩, ⟨point + 1, range.last⟩]
  else [range]

/-- Cuts a range where encodings become longer. -/
def byLength (range : CharRange) : List CharRange :=
  ((cutBehind 0x7F range).flatMap (cutBehind 0x7FF)).flatMap (cutBehind 0xFFFF)

/-- Cuts a range so that each part either lies in one block of the first size, or
consists of whole blocks of it and is cut in the same way by the sizes that follow. -/
def byBlocks : (sizes : List Nat) → CharRange → List CharRange
  | [], range => [range]
  | size :: sizes, range =>
    let last := range.last / size
    if range.first / size = last then [range]
    else
      let next := (range.first / size + 1) * size
      let (front, first) :=
        if range.first % size = 0 then ([], range.first) else ([⟨range.first, next - 1⟩], next)
      if first / size = last then front ++ [⟨first, range.last⟩]
      else if (range.last + 1) % size = 0 then front ++ byBlocks sizes ⟨first, range.last⟩
      else front ++ byBlocks sizes ⟨first, last * size - 1⟩ ++ [⟨last * size, range.last⟩]

/-- Numbers of characters that share all bytes but the last one, two or three. -/
def blockSizes : List Nat := [64, 4096, 262144]

/-- The bytes of a code point. -/
def bytesOf (point : Nat) : List UInt8 := String.utf8EncodeChar (Char.ofNat point)

/-- The byte ranges between the ends of a range whose bytes range independently. -/
def sequenceOf (range : CharRange) : Sequence :=
  List.zipWith ByteRange.mk (bytesOf range.first) (bytesOf range.last)

/-- The sequences of a range of characters. -/
def sequencesOfRange (range : CharRange) : List Sequence :=
  (byLength range).flatMap fun part =>
    if part.last ≤ 0x7F then [sequenceOf part] else (byBlocks blockSizes part).map sequenceOf

/-- The sequences of a set that holds no surrogates. -/
def sequences (set : CharSet) : List Sequence := set.ranges.flatMap sequencesOfRange

end Ancestry.Machine
