import Ancestry.Occurrences
import Ancestry.Proofs.Text.Boundaries
import Mathlib.Data.Finset.Card
import Mathlib.Data.List.Pairwise
import Mathlib.Order.Bounds.Basic

/-!
# Occurrences of a word

A literal is counted by taking the first place at which it occurs, going on behind it, and so
on until it occurs no more. No choice of places that do not overlap has more of them: of those
that begin before the first occurrence ends there is at most one, and it may be exchanged for
the first occurrence. The text is searched as bytes and cut behind each occurrence. As a word is
found only where its characters are, the text is never cut within a character.
-/

namespace Ancestry

section search

variable {α : Type} {word text : List α} {position : Nat} {slices hits : List Nat}

/-- Places where a word occurs in a text, none of which lies within an occurrence before it. -/
structure Packed (word text : List α) (places : Finset Nat) : Prop where
  occurs : ∀ place ∈ places, word <+: text.drop place
  apart : ∀ first ∈ places, ∀ second ∈ places, first < second → first + word.length ≤ second

/-- Some of the places of a packed set are packed. -/
theorem Packed.subset {places others : Finset Nat} (packed : Packed word text places)
    (inside : others ⊆ places) : Packed word text others where
  occurs place member := packed.occurs place (inside member)
  apart first inFirst second inSecond :=
    packed.apart first (inside inFirst) second (inside inSecond)

/-- Of packed places that do not begin before a place, at most one begins before an occurrence
there would end. -/
theorem Packed.card_early_le {places : Finset Nat} {place : Nat} (packed : Packed word text places)
    (least : ∀ other ∈ places, place ≤ other) :
    (places.filter (· < place + word.length)).card ≤ 1 := by
  have overlapping : ∀ first ∈ places, ∀ second ∈ places, second < place + word.length →
      ¬ first < second := by
    intro first inFirst second inSecond early before
    have apart := packed.apart first inFirst second inSecond before
    have behind := least first inFirst
    omega
  rw [Finset.card_le_one]
  intro first inFirst second inSecond
  rw [Finset.mem_filter] at inFirst inSecond
  apply Nat.le_antisymm
  · exact Nat.not_lt.mp (overlapping second inSecond.1 first inFirst.1 inFirst.2)
  · exact Nat.not_lt.mp (overlapping first inFirst.1 second inSecond.1 inSecond.2)

/-- The text is cut at a position and searched for the word, then cut again behind the place
where it was found, until it is not found any more. The positions of the cuts are listed, and
so are the places. -/
inductive Scans (word text : List α) : Nat → List Nat → List Nat → Prop where
  | last {position : Nat} (none : ∀ place, position ≤ place → ¬ word <+: text.drop place) :
      Scans word text position [position] []
  | hit {position place : Nat} {slices hits : List Nat}
      (found : IsLeast {place | position ≤ place ∧ word <+: text.drop place} place)
      (rest : Scans word text (place + word.length) slices hits) :
      Scans word text position (position :: slices) (place :: hits)

/-- There is one search from each position. -/
theorem Scans.unique {otherSlices otherHits : List Nat}
    (scans : Scans word text position slices hits)
    (other : Scans word text position otherSlices otherHits) :
    otherSlices = slices ∧ otherHits = hits := by
  induction scans generalizing otherSlices otherHits with
  | last none =>
    cases other with
    | last _ => exact ⟨rfl, rfl⟩
    | hit found _ => exact absurd found.1.2 (none _ found.1.1)
  | hit found rest inductionHypothesis =>
    cases other with
    | last none => exact absurd found.1.2 (none _ found.1.1)
    | hit again other =>
      obtain rfl := again.unique found
      obtain ⟨rfl, rfl⟩ := inductionHypothesis other
      exact ⟨rfl, rfl⟩

/-- A search from behind a position where the word does not occur finds the same places. -/
theorem Scans.earlier (absent : ¬ word <+: text.drop position)
    (scans : Scans word text (position + 1) slices hits) :
    ∃ slices, Scans word text position slices hits := by
  have later : ∀ place, position ≤ place → word <+: text.drop place → position + 1 ≤ place := by
    intro place least occurs
    refine Nat.lt_of_le_of_ne least ?_
    rintro rfl
    exact absent occurs
  cases scans with
  | last none =>
    exact ⟨_, .last fun place least occurs => none place (later place least occurs) occurs⟩
  | hit found rest =>
    refine ⟨_, .hit ⟨⟨Nat.le_of_succ_le found.1.1, found.1.2⟩, ?_⟩ rest⟩
    rintro place ⟨least, occurs⟩
    exact found.2 ⟨later place least occurs, occurs⟩

/-- The word occurs where a search finds it, and each time behind the occurrence before. -/
theorem Scans.occurrences (scans : Scans word text position slices hits) :
    (∀ place ∈ hits, position ≤ place ∧ word <+: text.drop place) ∧
      hits.Pairwise fun first second => first + word.length ≤ second := by
  induction scans with
  | last _ =>
    constructor
    · exact fun place member => absurd member List.not_mem_nil
    · exact .nil
  | @hit position place slices hits found rest inductionHypothesis =>
    obtain ⟨occur, apart⟩ := inductionHypothesis
    constructor
    · rw [List.forall_mem_cons]
      refine ⟨found.1, fun later member => ?_⟩
      obtain ⟨behind, occurs⟩ := occur later member
      exact ⟨found.1.1.trans (Nat.le_of_add_right_le behind), occurs⟩
    · exact .cons (fun later member => (occur later member).1) apart

/-- The places that a search finds are packed. -/
theorem Scans.packed (some : word ≠ []) (scans : Scans word text position slices hits) :
    Packed word text hits.toFinset ∧ hits.toFinset.card = hits.length := by
  obtain ⟨occur, apart⟩ := scans.occurrences
  have increasing : hits.Pairwise (· < ·) := apart.imp fun {first second} behind => by
    have long := List.length_pos_of_ne_nil some
    omega
  constructor
  · constructor
    · intro place member
      exact (occur place (List.mem_toFinset.mp member)).2
    · intro first inFirst second inSecond before
      have symmetric : Std.Symm fun one other : Nat =>
          one + word.length ≤ other ∨ other + word.length ≤ one := ⟨fun _ _ => Or.symm⟩
      have either : hits.Pairwise fun one other =>
          one + word.length ≤ other ∨ other + word.length ≤ one := apart.imp Or.inl
      rcases either.forall (List.mem_toFinset.mp inFirst) (List.mem_toFinset.mp inSecond)
        before.ne with behind | behind
      · exact behind
      · omega
  · exact List.toFinset_card_of_nodup (increasing.imp Nat.ne_of_lt)

/-- No packed places are more than those that a search finds. At most one of them begins before
the first occurrence ends, and the others lie in what is searched then. -/
theorem Scans.card_le (scans : Scans word text position slices hits) {places : Finset Nat}
    (packed : Packed word text places) (least : ∀ place ∈ places, position ≤ place) :
    places.card ≤ hits.length := by
  induction scans generalizing places with
  | @last position none =>
    have empty : places = ∅ := Finset.eq_empty_of_forall_notMem fun place member =>
      none place (least place member) (packed.occurs place member)
    rw [empty]
    exact Nat.le_refl _
  | @hit position place slices hits found rest inductionHypothesis =>
    have early : (places.filter (· < place + word.length)).card ≤ 1 :=
      packed.card_early_le fun other member =>
        found.2 ⟨least other member, packed.occurs other member⟩
    have later : (places.filter (¬ · < place + word.length)).card ≤ hits.length := by
      apply inductionHypothesis (packed.subset (Finset.filter_subset _ places))
      intro other member
      exact Nat.not_lt.mp (Finset.mem_filter.mp member).2
    rw [← Finset.card_filter_add_card_filter_not (· < place + word.length), List.length_cons]
    omega

/-- A search finds as many places as can be packed. -/
theorem Scans.greatest (some : word ≠ []) (scans : Scans word text 0 slices hits) :
    IsGreatest {count | ∃ places, Packed word text places ∧ places.card = count} hits.length := by
  constructor
  · exact ⟨hits.toFinset, scans.packed some⟩
  · rintro count ⟨places, packed, rfl⟩
    exact scans.card_le packed fun place _ => Nat.zero_le place

/-- Of two occurrences that overlap the first one is counted. -/
example : countWord ['a', 'a'] 0 ['a', 'a', 'a'] = 1 := by decide

/-- Positions in one text are carried over to another one in their order. A word occurs in the
first text where its image occurs in the second, and there only, and it ends where its image
does. -/
structure Carries {β : Type} (word text : List α) (image other : List β) (carry : Nat → Nat) :
    Prop where
  ordered : ∀ first second, first < second → second ≤ text.length → carry first < carry second
  occurs : ∀ place, word <+: text.drop place → image <+: other.drop (carry place)
  ends : ∀ place, word <+: text.drop place →
    carry (place + word.length) = carry place + image.length
  only : ∀ place, image <+: other.drop place →
    ∃ number ≤ text.length, place = carry number ∧ word <+: text.drop number

/-- Positions are carried over in order. -/
theorem Carries.le {β : Type} {image other : List β} {carry : Nat → Nat} {first second : Nat}
    (carries : Carries word text image other carry) (before : first ≤ second)
    (inside : second ≤ text.length) : carry first ≤ carry second := by
  rcases Nat.eq_or_lt_of_le before with rfl | before
  · exact Nat.le_refl _
  · exact (carries.ordered first second before inside).le

/-- Positions come from positions in the same order. -/
theorem Carries.le_of_le {β : Type} {image other : List β} {carry : Nat → Nat}
    {first second : Nat} (carries : Carries word text image other carry)
    (inside : first ≤ text.length) (before : carry first ≤ carry second) : first ≤ second := by
  by_contra after
  exact absurd before (Nat.not_le.mpr (carries.ordered second first (Nat.not_le.mp after) inside))

/-- The search of the one text goes as the search of the other. -/
theorem Scans.carried {β : Type} {image other : List β} {carry : Nat → Nat} (some : word ≠ [])
    (carries : Carries word text image other carry) (scans : Scans word text position slices hits)
    (inside : position ≤ text.length) :
    Scans image other (carry position) (slices.map carry) (hits.map carry) := by
  induction scans with
  | @last position none =>
    refine .last fun place behind begins => ?_
    obtain ⟨number, within, rfl, occurs⟩ := carries.only place begins
    exact none number (carries.le_of_le inside behind) occurs
  | @hit position place slices hits found rest inductionHypothesis =>
    obtain ⟨⟨behind, occurs⟩, first⟩ := found
    have long := List.length_pos_of_ne_nil some
    have ends := occurs.length_le
    rw [List.length_drop] at ends
    have least : IsLeast {place | carry position ≤ place ∧ image <+: other.drop place}
        (carry place) := by
      refine ⟨⟨carries.le behind (by omega), carries.occurs place occurs⟩, ?_⟩
      rintro _ ⟨later, begins⟩
      obtain ⟨number, within, rfl, again⟩ := carries.only _ begins
      exact carries.le (first ⟨carries.le_of_le inside later, again⟩) within
    have whole := inductionHypothesis (by omega)
    rw [carries.ends place occurs] at whole
    exact .hit least whole

end search

section characters

variable {word chars : List Char}

/-- What is counted in some characters is found by a search from the first of them on that does
not belong to an occurrence already counted. -/
theorem exists_scans (some : word ≠ []) (text : List Char) (skip : Nat) {position : Nat}
    (rest : text.drop position = chars) :
    ∃ slices hits, Scans word text (position + skip) slices hits ∧
      hits.length = countWord word skip chars := by
  induction chars generalizing skip position with
  | nil =>
    have none : ∀ place, position + skip ≤ place → ¬ word <+: text.drop place := by
      intro place behind
      rw [List.drop_eq_nil_of_le ((List.drop_eq_nil_iff.mp rest).trans (by omega))]
      exact fun begins => some (List.prefix_nil.mp begins)
    exact ⟨_, _, .last none, by cases skip <;> rfl⟩
  | cons c chars inductionHypothesis =>
    have behind : text.drop (position + 1) = chars := by
      rw [← List.drop_drop, rest, List.drop_one, List.tail_cons]
    cases skip with
    | succ skip =>
      obtain ⟨slices, hits, scans, counted⟩ := inductionHypothesis skip behind
      rw [Nat.add_right_comm] at scans
      exact ⟨slices, hits, scans, counted⟩
    | zero =>
      by_cases begins : word <+: c :: chars
      · obtain ⟨slices, hits, scans, counted⟩ := inductionHypothesis (word.length - 1) behind
        have long := List.length_pos_of_ne_nil some
        have least : IsLeast {place | position ≤ place ∧ word <+: text.drop place} position :=
          ⟨⟨Nat.le_refl _, rest ▸ begins⟩, fun place behind => behind.1⟩
        rw [show position + 1 + (word.length - 1) = position + word.length by omega] at scans
        refine ⟨_, _, .hit least scans, ?_⟩
        rw [countWord, if_pos (List.isPrefixOf_iff_prefix.mpr begins), List.length_cons, counted]
      · obtain ⟨slices, hits, scans, counted⟩ := inductionHypothesis 0 behind
        obtain ⟨slices, scans⟩ := scans.earlier (rest ▸ begins)
        refine ⟨slices, hits, scans, ?_⟩
        rw [countWord, if_neg fun found => begins (List.isPrefixOf_iff_prefix.mp found), counted]

open Utf8 in
/-- Characters occur where their bytes do. -/
theorem carries_offset (some : word ≠ []) (text : List Char) :
    Carries word text (written word) (written text) (offset text) where
  ordered _ _ := offset_lt
  occurs _ := prefix_drop_offset
  ends _ := offset_behind
  only _ := exists_offset_of_prefix some

open Utf8 in
/-- The search of the bytes goes as the search of the characters. -/
theorem Scans.bytes {text : List Char} {position : Nat} {slices hits : List Nat}
    (some : word ≠ []) (scans : Scans word text position slices hits)
    (inside : position ≤ text.length) :
    Scans (written word) (written text) (offset text position) (slices.map (offset text))
      (hits.map (offset text)) :=
  scans.carried some (carries_offset some text) inside

end characters

/-- The count of a literal is exact: it is the greatest number of its occurrences in the text
that do not overlap. The search that counts them ends, it can only go one way, and it cuts the
text at boundaries of characters alone.

Proof: the search from left to right packs as many occurrences as any other choice, as each of its
hits ends first. It is one search of characters, and offsets carry it over to the bytes. -/
theorem literal_count_greatest (word text : String) (some : word ≠ "") :
    IsGreatest {count | ∃ places, Packed word.toList text.toList places ∧ places.card = count}
        ((Needle.literal word).countIn text.toList) ∧
      ∃ slices hits, Scans (Utf8.encode word) (Utf8.encode text) 0 slices hits ∧
        hits.length = (Needle.literal word).countIn text.toList ∧
        (∀ position ∈ slices, Utf8.Boundary text position) ∧
        ∀ otherSlices otherHits,
          Scans (Utf8.encode word) (Utf8.encode text) 0 otherSlices otherHits →
            otherSlices = slices ∧ otherHits = hits := by
  have given : word.toList ≠ [] := fun empty => some (String.toList_eq_nil_iff.mp empty)
  have whole : text.toList.drop 0 = text.toList := List.drop_zero
  obtain ⟨slices, hits, scans, counted⟩ := exists_scans given text.toList 0 whole
  constructor
  · have greatest := scans.greatest given
    rw [counted] at greatest
    exact greatest
  · have bytes := scans.bytes given (Nat.zero_le _)
    refine ⟨_, _, bytes, ?_, ?_, ?_⟩
    · rw [List.length_map]
      exact counted
    · intro position member
      obtain ⟨number, _, rfl⟩ := List.mem_map.mp member
      exact Utf8.boundary_offset text number
    · intro otherSlices otherHits other
      exact bytes.unique other

/-- A word of two characters that overlaps itself, in a text where it occurs at three places.
Two of them can be packed, which the search of the bytes finds. -/
theorem literal_count_greatest_umlauts :
    IsGreatest {count | ∃ places, Packed "ää".toList "ääääa".toList places ∧
        places.card = count} 2 ∧
      ∃ slices hits, Scans (Utf8.encode "ää") (Utf8.encode "ääääa") 0 slices hits ∧
        hits.length = 2 ∧ ∀ position ∈ slices, Utf8.Boundary "ääääa" position := by
  have counted : (Needle.literal "ää").countIn "ääääa".toList = 2 := by decide
  obtain ⟨greatest, slices, hits, scans, found, boundaries, _⟩ :=
    literal_count_greatest "ää" "ääääa" (by decide)
  rw [counted] at greatest found
  exact ⟨greatest, slices, hits, scans, found, boundaries⟩

end Ancestry
