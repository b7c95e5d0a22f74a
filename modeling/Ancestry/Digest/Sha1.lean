import Ancestry.ObjectId

/-!
# SHA-1

The digest of a byte string: the string is padded to whole blocks of sixteen
big-endian words, every block is stretched to eighty words, and eighty rounds fold
it into five words of state. Words wrap at 32 bits.
-/

namespace Ancestry.Sha1

/-- Five words of state. -/
structure State where
  a : UInt32
  b : UInt32
  c : UInt32
  d : UInt32
  e : UInt32
  deriving DecidableEq, Repr

/-- State before the first block. -/
def State.initial : State := ⟨0x67452301, 0xEFCDAB89, 0x98BADCFE, 0x10325476, 0xC3D2E1F0⟩

/-- Rotates a word to the left. -/
def rotate (word : UInt32) (amount : UInt32) : UInt32 :=
  (word <<< amount) ||| (word >>> (32 - amount))

/-- Big-endian bytes of a number, `count` of them. -/
def bigEndian (count value : Nat) : Bytes :=
  ((List.range count).map fun i => UInt8.ofNat (value / Nat.pow 256 i % 256)).reverse

/-- Bytes put after a string of some length: one bit, zeros up to eight bytes
before a block's end, and the length in bits. -/
def padding (length : Nat) : Bytes :=
  0x80 :: (List.replicate ((119 - length % 64) % 64) 0 ++ bigEndian 8 (length * 8 % Nat.pow 2 64))

/-- Words of a byte string, four bytes a word. -/
def words : Bytes → List UInt32
  | a :: b :: c :: d :: rest =>
    ((a.toUInt32 <<< 24) ||| (b.toUInt32 <<< 16) ||| (c.toUInt32 <<< 8) ||| d.toUInt32) ::
      words rest
  | _ => []

/-- The words of a block stretched to `16 + count`. -/
def stretch : (count : Nat) → Array UInt32 → Array UInt32
  | 0, schedule => schedule
  | count + 1, schedule =>
    let n := schedule.size
    let mixed := schedule.getD (n - 3) 0 ^^^ schedule.getD (n - 8) 0 ^^^
      schedule.getD (n - 14) 0 ^^^ schedule.getD (n - 16) 0
    stretch count (schedule.push (rotate mixed 1))

/-- Mixing function and constant of a round. -/
def mix (round : Nat) (s : State) : UInt32 :=
  if round < 20 then ((s.b &&& s.c) ||| (~~~s.b &&& s.d)) + 0x5A827999
  else if round < 40 then (s.b ^^^ s.c ^^^ s.d) + 0x6ED9EBA1
  else if round < 60 then ((s.b &&& s.c) ||| (s.b &&& s.d) ||| (s.c &&& s.d)) + 0x8F1BBCDC
  else (s.b ^^^ s.c ^^^ s.d) + 0xCA62C1D6

/-- The remaining rounds over the words of a schedule. -/
def rounds : (round : Nat) → List UInt32 → State → State
  | _, [], s => s
  | round, word :: rest, s =>
    rounds (round + 1) rest
      ⟨rotate s.a 5 + mix round s + s.e + word, s.a, rotate s.b 30, s.c, s.d⟩

/-- Folds one block into the state. -/
def absorb (s : State) (block : List UInt32) : State :=
  let t := rounds 0 (stretch 64 block.toArray).toList s
  ⟨s.a + t.a, s.b + t.b, s.c + t.c, s.d + t.d, s.e + t.e⟩

/-- Folds the blocks of a list of words into the state, `count` blocks. -/
def absorbAll : (count : Nat) → List UInt32 → State → State
  | 0, _, s => s
  | count + 1, input, s => absorbAll count (input.drop 16) (absorb s (input.take 16))

/-- The four bytes of a word, most significant first. -/
def wordBytes (word : UInt32) : Vector UInt8 4 :=
  #v[(word >>> 24).toUInt8, (word >>> 16).toUInt8, (word >>> 8).toUInt8, word.toUInt8]

/-- The bytes of the state. -/
def State.bytes (s : State) : Vector UInt8 20 :=
  wordBytes s.a ++ wordBytes s.b ++ wordBytes s.c ++ wordBytes s.d ++ wordBytes s.e

/-- The digest of a byte string. -/
def digest (bytes : Bytes) : ObjectId :=
  let input := words (bytes ++ padding bytes.length)
  ⟨(absorbAll (input.length / 16) input State.initial).bytes⟩

end Ancestry.Sha1
