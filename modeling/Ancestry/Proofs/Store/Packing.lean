import Ancestry.Deflate.Zlib

/-!
# What is packed is unpacked

A block that holds bytes as they are expands to them and leaves what stands behind it. So do
the blocks of a packed string one after the other, and the checksum behind them is that of the
bytes.
-/

namespace Ancestry

namespace Deflate

open Zlib

/-- A number of two bytes is written as its bytes. -/
theorem pair_ofNat (value : Nat) (below : value < 65536) :
    pair (UInt8.ofNat (value % 256)) (UInt8.ofNat (value / 256)) = value := by
  have low : (UInt8.ofNat (value % 256)).toNat = value % 256 :=
    UInt8.toNat_ofNat_of_lt' (Nat.mod_lt _ (by decide))
  have high : (UInt8.ofNat (value / 256)).toNat = value / 256 :=
    UInt8.toNat_ofNat_of_lt' (by change value / 256 < 256; omega)
  rw [pair, low, high]
  omega

/-- The bytes of a block are taken, and those behind it are left. -/
theorem expandStored_block {bytes : Bytes} (sized : bytes.length ≤ blockBound) (rest : Bytes)
    (out : Array UInt8) :
    expandStored (UInt8.ofNat (bytes.length % 256) :: UInt8.ofNat (bytes.length / 256) ::
        UInt8.ofNat ((blockBound - bytes.length) % 256) ::
        UInt8.ofNat ((blockBound - bytes.length) / 256) :: (bytes ++ rest)) out =
      some (out ++ bytes.toArray, Bits.ofBytes rest) := by
  have bound : blockBound = 65535 := rfl
  have count := pair_ofNat bytes.length (by omega)
  have opposite := pair_ofNat (blockBound - bytes.length) (by omega)
  simp only [expandStored]
  rw [count, opposite, if_pos ⟨by omega, by simp⟩, List.take_left, List.drop_left]

/-- The byte in front of a block says whether it is the last, and that bytes follow as they
are. -/
theorem mark_bits (last : Bool) (rest : Bytes) :
    (Bits.ofBytes ((if last then 1 else 0) :: rest)).next? =
        some (last, ⟨1, (if last then 1 else 0) :: rest⟩) ∧
      (Bits.mk 1 ((if last then 1 else 0) :: rest)).number? 2 =
        some (0, ⟨3, (if last then 1 else 0) :: rest⟩) := by
  have bits : ∀ last : Bool, (if last then 1 else 0 : UInt8).toNat.testBit 0 = last ∧
      (if last then 1 else 0 : UInt8).toNat.testBit 1 = false ∧
      (if last then 1 else 0 : UInt8).toNat.testBit 2 = false := by decide
  obtain ⟨first, second, third⟩ := bits last
  simp [Bits.number?, Bits.next?, Bits.ofBytes, first, second, third]

/-- A block is expanded, and with it the stream if it is the last one. -/
theorem expandBlocks_block {bytes : Bytes} (sized : bytes.length ≤ blockBound) (last : Bool)
    (most : Nat) (rest : Bytes) (out : Array UInt8) :
    expandBlocks (most + 1) (Bits.ofBytes (storedBlock last bytes ++ rest)) out =
      if last then some (out ++ bytes.toArray, Bits.ofBytes rest)
      else expandBlocks most (Bits.ofBytes rest) (out ++ bytes.toArray) := by
  have expanded := expandStored_block sized rest out
  obtain ⟨first, form⟩ := mark_bits last (UInt8.ofNat (bytes.length % 256) ::
    UInt8.ofNat (bytes.length / 256) :: UInt8.ofNat ((blockBound - bytes.length) % 256) ::
    UInt8.ofNat ((blockBound - bytes.length) / 256) :: (bytes ++ rest))
  simp only [storedBlock, List.cons_append, List.nil_append, expandBlocks, first, form,
    Option.bind_eq_bind, Option.bind_some, if_true, Bits.aligned]
  rw [if_neg (by decide), List.drop_one, List.tail_cons, expanded]
  rfl

/-- Blocks are expanded one after the other. -/
theorem expandBlocks_blocks {count : Nat} {bytes : Bytes}
    (sized : bytes.length < (count + 1) * blockBound) {most : Nat} (enough : count < most)
    (rest : Bytes) (out : Array UInt8) :
    expandBlocks most (Bits.ofBytes (storedBlocks count bytes ++ rest)) out =
      some (out ++ bytes.toArray, Bits.ofBytes rest) := by
  induction count generalizing bytes most out with
  | zero =>
    obtain ⟨most, rfl⟩ := Nat.exists_eq_add_of_lt enough
    rw [storedBlocks, expandBlocks_block (by omega)]
    rfl
  | succ count inductionHypothesis =>
    rw [Nat.succ_mul] at sized
    obtain ⟨most, rfl⟩ : ∃ fewer, most = fewer + 1 := ⟨most - 1, by omega⟩
    have first : (bytes.take blockBound).length ≤ blockBound := List.length_take_le _ _
    have positive : 0 < (count + 1) * blockBound := Nat.mul_pos (Nat.succ_pos _) (by decide)
    have others : (bytes.drop blockBound).length < (count + 1) * blockBound := by
      rw [List.length_drop]
      omega
    have whole : (bytes.take blockBound).toArray ++ (bytes.drop blockBound).toArray =
        bytes.toArray := by simp
    rw [storedBlocks, List.append_assoc, expandBlocks_block first, if_neg (by decide),
      inductionHypothesis others (by omega), Array.append_assoc, whole]

end Deflate

namespace Zlib

/-- Blocks hold no fewer bytes than they stand for. -/
theorem length_storedBlocks (count : Nat) (bytes : Bytes) :
    bytes.length ≤ (storedBlocks count bytes).length := by
  induction count generalizing bytes with
  | zero =>
    simp only [storedBlocks, storedBlock, List.length_append]
    omega
  | succ count inductionHypothesis =>
    have others := inductionHypothesis (bytes.drop blockBound)
    rw [List.length_drop] at others
    simp only [storedBlocks, storedBlock, List.length_append, List.length_take, List.length_cons,
      List.length_nil]
    omega

/-- A packer whose packed bytes are unpacked to what was packed. -/
def Packs (pack : Bytes → Bytes) : Prop := ∀ bytes, unpack? (pack bytes) = some bytes

/-- What is packed is unpacked.

Proof: the blocks hold the bytes as they are, so that the checksum behind them is that of what they
expand to. -/
theorem unpack?_pack (bytes : Bytes) : unpack? (pack bytes) = some bytes := by
  have sized : bytes.length < (bytes.length / blockBound + 1) * blockBound :=
    Nat.lt_mul_of_div_lt (Nat.lt_succ_self _) (by decide)
  have enough : bytes.length / blockBound <
      8 * (storedBlocks (bytes.length / blockBound) bytes ++ quad (checksum bytes)).length + 1 := by
    have blocks := length_storedBlocks (bytes.length / blockBound) bytes
    have fewer := Nat.div_le_self bytes.length blockBound
    rw [List.length_append]
    omega
  have inflated : Deflate.inflate (storedBlocks (bytes.length / blockBound) bytes ++
      quad (checksum bytes)) = some (bytes, quad (checksum bytes)) := by
    rw [Deflate.inflate, Deflate.expandBlocks_blocks sized enough]
    simp [Deflate.Bits.ofBytes, Deflate.Bits.aligned]
  have header : headerHolds 0x78 0x01 = true := by decide
  rw [pack, List.append_assoc, List.cons_append, List.cons_append, List.nil_append, unpack?,
    if_pos header, inflated]
  exact if_pos rfl

/-- The packer that puts the bytes into blocks as they are is one. -/
theorem packs_pack : Packs pack := unpack?_pack

end Zlib

end Ancestry
