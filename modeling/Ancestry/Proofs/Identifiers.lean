import Ancestry.ObjectId
import Mathlib.Data.Nat.Digits.Defs
import Mathlib.Data.Set.Card

/-!
# There are finitely many identifiers

Read as digits to the base 256, the bytes of an identifier are a number below
`ObjectId.total`, and different identifiers are different numbers. So a loop that marks
a new identifier in every round ends after at most `ObjectId.total` rounds, whatever is
kept in a store. The number of identifiers without a mark is the measure of such loops.
-/

namespace Ancestry.ObjectId

/-- The number whose digits to the base 256 are the bytes, lowest first. -/
def code (id : ObjectId) : Nat := Nat.ofDigits 256 (id.toBytes.map UInt8.toNat)

/-- Every digit of the code is a byte. -/
theorem digit_bound (id : ObjectId) :
    ∀ digit ∈ id.toBytes.map UInt8.toNat, digit < 256 := by
  intro digit member
  obtain ⟨byte, _, rfl⟩ := List.mem_map.mp member
  exact byte.toNat_lt

/-- An identifier has twenty digits. -/
theorem digits_length (id : ObjectId) : (id.toBytes.map UInt8.toNat).length = 20 := by
  simp [toBytes]

/-- The number of an identifier is below that of all. -/
theorem code_lt_total (id : ObjectId) : id.code < total := by
  have bound : id.code < 256 ^ (id.toBytes.map UInt8.toNat).length :=
    Nat.ofDigits_lt_base_pow_length (by decide) id.digit_bound
  rwa [digits_length] at bound

/-- Twenty digits determine the bytes. -/
theorem code_injective : Function.Injective code := by
  intro left right same
  have digits : left.toBytes.map UInt8.toNat = right.toBytes.map UInt8.toNat :=
    Nat.ofDigits_inj_of_len_eq (by decide) (by rw [digits_length, digits_length])
      left.digit_bound right.digit_bound same
  have bytes : left.toBytes = right.toBytes :=
    List.map_injective_iff.mpr (fun _ _ => UInt8.toNat_inj.mp) digits
  cases left
  cases right
  exact congrArg ObjectId.mk (Vector.toList_inj.mp bytes)

instance : Finite ObjectId :=
  Finite.of_injective (fun id => (⟨id.code, id.code_lt_total⟩ : Fin total)) fun _ _ same =>
    code_injective (Fin.mk.inj same)

/-- The identifier of twenty equal bytes. -/
def uniform (byte : UInt8) : ObjectId := ⟨Vector.replicate 20 byte⟩

/-- There are no more identifiers than codes. -/
theorem card_le_total : Nat.card ObjectId ≤ total := by
  have bound := Nat.card_le_card_of_injective
    (fun id : ObjectId => (⟨id.code, id.code_lt_total⟩ : Fin total))
    fun _ _ same => code_injective (Fin.mk.inj same)
  simpa using bound

/-- How many identifiers have no mark. -/
noncomputable def unmarked (marked : ObjectId → Prop) : Nat := {id | ¬ marked id}.ncard

/-- No more commits are unmarked than there are. -/
theorem unmarked_le_total (marked : ObjectId → Prop) : unmarked marked ≤ total :=
  (Set.ncard_le_card _).trans card_le_total

/-- More marks leave fewer identifiers. -/
theorem unmarked_mono (before after : ObjectId → Prop) (grown : ∀ id, before id → after id) :
    unmarked after ≤ unmarked before :=
  Set.ncard_le_ncard fun id absent marked => absent (grown id marked)

/-- A new mark leaves strictly fewer. -/
theorem unmarked_lt (before after : ObjectId → Prop) (grown : ∀ id, before id → after id)
    (id : ObjectId) (absent : ¬ before id) (marked : after id) :
    unmarked after < unmarked before := by
  have fewer : {id | ¬ after id} ⊂ {id | ¬ before id} := by
    refine ⟨fun other missing present => missing (grown other present), ?_⟩
    intro covered
    exact covered absent marked
  exact Set.ncard_lt_ncard fewer

/-- Where an identifier has no mark, the measure allows another round. -/
theorem unmarked_pos (marked : ObjectId → Prop) (id : ObjectId) (absent : ¬ marked id) :
    0 < unmarked marked :=
  (Set.ncard_pos).mpr ⟨id, absent⟩

/-- Distinct identifiers are no more than there are. -/
theorem length_le_total (ids : List ObjectId) (distinct : ids.Nodup) : ids.length ≤ total := by
  have below : (ids.map code).Nodup := distinct.map code_injective
  have inside : ids.map code ⊆ List.range total := by
    intro number member
    obtain ⟨id, _, rfl⟩ := List.mem_map.mp member
    exact List.mem_range.mpr id.code_lt_total
  simpa using (below.subperm inside).length_le

end Ancestry.ObjectId
