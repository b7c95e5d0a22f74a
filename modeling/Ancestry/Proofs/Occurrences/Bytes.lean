import Ancestry.Proofs.Occurrences
import Ancestry.Proofs.Text.Heads

/-!
# Occurrences in bytes that are no text

Bytes that are no text are replaced before a literal is counted, which changes how long what is
searched is and where things stand in it. The count stays what a search of the bytes themselves
finds: what is replaced is no part of an occurrence, and an occurrence behind it is read as it
stands, whatever was broken before it.
-/

namespace Ancestry

open Utf8

/-- A word without replaced characters occurs among the characters that are read where its bytes
occur among the bytes. -/
theorem carries_place {word : List Char} (some : word ≠ []) (given : replacement ∉ word)
    (bytes : Bytes) :
    Carries word ((heads bytes).map Head.char) (written word) bytes (place bytes) := by
  have behind (number : Nat) : ((heads bytes).map Head.char).drop number =
      (heads (bytes.drop (place bytes number))).map Head.char := by
    rw [← List.map_drop, heads_drop]
  constructor
  · intro first second before inside
    rw [List.length_map] at inside
    exact place_lt before inside
  · intro number occurs
    rw [behind] at occurs
    exact (written_prefix_of_heads given occurs).1
  · intro number occurs
    rw [behind] at occurs
    rw [place_add, (written_prefix_of_heads given occurs).2]
  · intro position begins
    rw [List.length_map]
    exact exists_place_of_prefix some begins

/-- A literal without the replacement character is counted in any bytes as often as a search of
the bytes from left to right finds its bytes, each time behind the end of the occurrence before.
There is one such search.

Proof: the decoded text is made of heads, and a character that is no replacement is decoded from its
own bytes only. So the positions of the heads carry the search of the text over to the bytes. -/
theorem literal_count_raw (word : String) (some : word ≠ "")
    (given : replacement ∉ word.toList) (bytes : Bytes) :
    ∃ slices hits, Scans (encode word) bytes 0 slices hits ∧
      hits.length = (Needle.literal word).count bytes ∧
      ∀ otherSlices otherHits, Scans (encode word) bytes 0 otherSlices otherHits →
        otherSlices = slices ∧ otherHits = hits := by
  have filled : word.toList ≠ [] := fun empty => some (String.toList_eq_nil_iff.mp empty)
  have whole : ((heads bytes).map Head.char).drop 0 = (heads bytes).map Head.char := List.drop_zero
  obtain ⟨slices, hits, scans, counted⟩ := exists_scans filled _ 0 whole
  have raw := scans.carried filled (carries_place filled given bytes) (Nat.zero_le _)
  refine ⟨_, _, raw, ?_, fun otherSlices otherHits other => raw.unique other⟩
  rw [List.length_map, counted, Needle.count, toList_decodeLossy]
  rfl

/-- A word of two bytes, behind its own first byte and behind the beginning of another character. -/
theorem literal_count_raw_broken :
    ∃ slices hits,
      Scans (encode "é") [0xC3, 0xC3, 0xA9, 0xE2, 0x82, 0xC3, 0xA9, 0xA9] 0 slices hits ∧
        hits.length = 2 := by
  have counted :
      (Needle.literal "é").count [0xC3, 0xC3, 0xA9, 0xE2, 0x82, 0xC3, 0xA9, 0xA9] = 2 := by
    decide
  obtain ⟨slices, hits, scans, found, _⟩ := literal_count_raw "é" (by decide) (by decide)
    [0xC3, 0xC3, 0xA9, 0xE2, 0x82, 0xC3, 0xA9, 0xA9]
  exact ⟨slices, hits, scans, found.trans counted⟩

end Ancestry
