import Ancestry.Proofs.Occurrences
import Ancestry.Proofs.Pattern.Counting
import Ancestry.Proofs.Pattern.Words

/-!
# Occurrences of a pattern

A pattern is searched for in the bytes of a text, and again from one character behind the
beginning of the stretch that was found. So no beginning is passed over and none is found twice,
also where a stretch is empty, and at the end of the text. A word that is searched for as a
pattern is found wherever it stands, and a literal is found at some of these places only.
-/

namespace Ancestry

open Utf8

variable {text : String} {pattern : Pattern} {findAt : Nat → Option Nat} {position : Nat}
  {found : List Nat}

/-- A pattern begins to match at a position among the bytes of a text. -/
def Pattern.BeginsAt (pattern : Pattern) (text : String) (position : Nat) : Prop :=
  ∃ number, pattern.Begins text.toList number ∧ position = offset text.toList number

/-- A search that can be started at any boundary and finds the first position from there on at
which a pattern begins to match, if there is one. -/
def Pattern.FoundBy (pattern : Pattern) (text : String) (findAt : Nat → Option Nat) : Prop :=
  ∀ position place, Boundary text position → (findAt position = some place ↔
    IsLeast {other | position ≤ other ∧ pattern.BeginsAt text other} place)

/-- The length of the first character, and one where there is none. -/
def stride (text : String) : Nat :=
  match text.toList with
  | [] => 1
  | c :: _ => (String.utf8EncodeChar c).length

/-- The text is searched from a position on, then cut where something was found and searched
from one character behind, until nothing is found or the text is left. The positions where
something was found are listed. -/
inductive Seeks (text : String) (findAt : Nat → Option Nat) : Nat → List Nat → Prop where
  | past {position : Nat} (outside : size text < position) : Seeks text findAt position []
  | missed {position : Nat} (inside : position ≤ size text) (nothing : findAt position = none) :
      Seeks text findAt position []
  | hit {position : Nat} {front back : String} {found : List Nat} (inside : position ≤ size text)
      (first : findAt position = some (size front)) (cut : text = front ++ back)
      (rest : Seeks text findAt (size front + stride back) found) :
      Seeks text findAt position (size front :: found)

/-- A text is cut in one way at a position. -/
theorem cut_unique {front back otherFront otherBack : String}
    (cut : front ++ back = otherFront ++ otherBack) (level : size front = size otherFront) :
    front = otherFront ∧ back = otherBack := by
  have chars : front.toList ++ back.toList = otherFront.toList ++ otherBack.toList := by
    rw [← String.toList_append, cut, String.toList_append]
  have first : offset (front.toList ++ back.toList) front.toList.length = size front := by
    rw [offset, List.take_left]
    rfl
  have second : offset (front.toList ++ back.toList) otherFront.toList.length =
      size otherFront := by
    rw [chars, offset, List.take_left]
    rfl
  have same : offset (front.toList ++ back.toList) front.toList.length =
      offset (front.toList ++ back.toList) otherFront.toList.length := by
    rw [first, second, level]
  have inside : front.toList.length ≤ (front.toList ++ back.toList).length := by simp
  have otherInside : otherFront.toList.length ≤ (front.toList ++ back.toList).length := by
    simp [chars]
  have equal : front.toList.length = otherFront.toList.length := by
    apply Nat.le_antisymm
    · exact le_of_offset_le inside same.le
    · exact le_of_offset_le otherInside same.ge
  obtain ⟨fronts, backs⟩ := List.append_inj chars equal
  exact ⟨String.toList_injective fronts, String.toList_injective backs⟩

/-- There is one search from each position. -/
theorem Seeks.unique {other : List Nat} (seeks : Seeks text findAt position found)
    (again : Seeks text findAt position other) : other = found := by
  induction seeks generalizing other with
  | past outside =>
    cases again with
    | past _ => rfl
    | missed inside _ => omega
    | hit inside _ _ _ => omega
  | missed inside nothing =>
    cases again with
    | past _ => rfl
    | missed _ _ => rfl
    | hit _ first _ _ => simp [nothing] at first
  | hit inside first cut rest inductionHypothesis =>
    cases again with
    | past outside => omega
    | missed _ nothing => simp [nothing] at first
    | hit _ second otherCut more =>
      have size_eq := Option.some.inj (second.symm.trans first)
      obtain ⟨rfl, rfl⟩ := cut_unique (otherCut.symm.trans cut) size_eq
      exact congrArg _ (inductionHypothesis more)

section search

variable {number place : Nat} {places : List Nat}

/-- Behind a character of a text the search goes on with the next one. -/
theorem offset_succ (inside : number < text.toList.length) :
    offset text.toList number + stride (.ofList (text.toList.drop number)) =
      offset text.toList (number + 1) := by
  rw [offset_add, stride, String.toList_ofList, List.drop_eq_getElem_cons inside, offset_cons]
  rfl

/-- Behind the last character of a text the search has left the text. -/
theorem size_lt_offset_length (text : String) :
    size text < offset text.toList text.toList.length +
      stride (.ofList (text.toList.drop text.toList.length)) := by
  rw [offset, List.take_length, stride, String.toList_ofList, List.drop_length]
  exact Nat.lt_succ_self _

/-- What is found from a character on is where the pattern first begins to match. -/
theorem found_iff (finds : pattern.FoundBy text findAt) (inside : number ≤ text.toList.length) :
    findAt (offset text.toList number) = some position ↔
      ∃ place, IsLeast {place | number ≤ place ∧ pattern.Begins text.toList place} place ∧
        offset text.toList place = position := by
  rw [finds _ _ (boundary_offset text number)]
  constructor
  · rintro ⟨⟨behind, place, begins, rfl⟩, least⟩
    refine ⟨place, ⟨⟨le_of_offset_le inside behind, begins⟩, ?_⟩, rfl⟩
    rintro other ⟨later, present⟩
    exact le_of_offset_le begins.inside
      (least ⟨offset_le later present.inside, other, present, rfl⟩)
  · rintro ⟨place, ⟨⟨behind, begins⟩, least⟩, rfl⟩
    refine ⟨⟨offset_le behind begins.inside, place, begins, rfl⟩, ?_⟩
    rintro _ ⟨later, other, present, rfl⟩
    exact offset_le (least ⟨le_of_offset_le inside later, present⟩) present.inside

/-- A search that is started at a character lists where the pattern begins to match from there
on. -/
theorem seeks_of_lists (finds : pattern.FoundBy text findAt)
    (lists : Pattern.Lists (pattern.Begins text.toList) number places)
    (inside : number ≤ text.toList.length) :
    Seeks text findAt (offset text.toList number) (places.map (offset text.toList)) := by
  induction places generalizing number with
  | nil =>
    refine .missed (offset_le_size text number) ?_
    rw [Option.eq_none_iff_forall_ne_some]
    intro position found
    obtain ⟨place, least, _⟩ := (found_iff finds inside).mp found
    cases (lists.member place).mpr least.1
  | cons place places inductionHypothesis =>
    have found := (found_iff finds inside).mpr ⟨place, lists.head, rfl⟩
    obtain ⟨cut, level⟩ := cut_offset text place
    rw [level] at found
    rw [List.map_cons, level]
    refine .hit (offset_le_size text number) found cut ?_
    rw [← level]
    rcases Nat.eq_or_lt_of_le lists.head.1.2.inside with rfl | within
    · have done : places = [] := by
        rw [List.eq_nil_iff_forall_not_mem]
        intro other present
        obtain ⟨later, begins⟩ := (lists.tail.member other).mp present
        exact absurd begins.inside (Nat.not_le.mpr later)
      rw [done]
      exact .past (size_lt_offset_length text)
    · rw [offset_succ within]
      exact inductionHypothesis lists.tail within

/-- The positions of the places where a pattern begins to match are listed with them. -/
theorem lists_offset (lists : Pattern.Lists (pattern.Begins text.toList) 0 places) :
    Pattern.Lists (pattern.BeginsAt text) 0 (places.map (offset text.toList)) := by
  constructor
  · rw [List.pairwise_map]
    refine lists.ordered.imp_of_mem ?_
    intro first second _ present before
    exact offset_lt before ((lists.member second).mp present).2.inside
  · intro position
    simp only [List.mem_map, lists.member, Nat.zero_le, true_and, Pattern.BeginsAt, eq_comm]

end search

/-- A literal is found at some of the places where it stands. -/
theorem countWord_le {word chars : List Char} (filled : word ≠ []) {places : List Nat}
    (lists : Pattern.Lists (fun place => word <+: chars.drop place) 0 places) :
    countWord word 0 chars ≤ places.length := by
  have whole : chars.drop 0 = chars := List.drop_zero
  obtain ⟨slices, hits, scans, counted⟩ := exists_scans filled chars 0 whole
  obtain ⟨occur, apart⟩ := scans.occurrences
  have long := List.length_pos_of_ne_nil filled
  have once : hits.Nodup := apart.imp fun {first second} behind => by omega
  have listed : hits ⊆ places := fun place present =>
    (lists.member place).mpr (occur place present)
  rw [← counted]
  exact (List.subperm_of_subset once listed).length_le

/-- The count of a pattern is exact. Whatever finds its first match from a position on, the
search ends, it can only go one way, and it lists all boundaries of the text at which a match
begins, each once. A word whose characters mean themselves is refused as a pattern only if a
machine for it is too large, and it is counted wherever it stands, so at least as often as the
literal.

Proof: the places at which a pattern begins to match are a set of numbers, of which the count goes
through the elements in order; a search by first matches visits the same places. A word that stands
at a place begins there as a pattern, while the literal leaves out those that overlap. -/
theorem pattern_count_begins :
    (∀ (source : String) (pattern : Pattern) (text : String) (findAt : Nat → Option Nat),
      pattern.FoundBy text findAt →
        ∃ positions, Seeks text findAt 0 positions ∧
          (∀ others, Seeks text findAt 0 others → others = positions) ∧
          Pattern.Lists (pattern.BeginsAt text) 0 positions ∧
          (Needle.pattern source pattern).countIn text.toList = positions.length) ∧
      ∀ word : String, word ≠ "" → (∀ c ∈ word.toList, Pattern.isMeta c = false) →
        (Needle.ofPattern word =
          if Machine.fits (Pattern.pieceOfWord word.toList).outline
          then .ok (.pattern word (.word word.toList))
          else .error (.invalidPattern word .unreadable)) ∧
        ∀ bytes, ∃ places,
          Pattern.Lists (fun place => word.toList <+: (decodeLossy bytes).toList.drop place) 0
              places ∧
            (Needle.pattern word (.word word.toList)).count bytes = places.length ∧
            (Needle.literal word).count bytes ≤
              (Needle.pattern word (.word word.toList)).count bytes := by
  constructor
  · intro source pattern text findAt finds
    obtain ⟨places, lists, counted⟩ := Pattern.exists_count pattern text.toList
    have seeks := seeks_of_lists finds lists (Nat.zero_le _)
    refine ⟨places.map (offset text.toList), seeks, fun others other => seeks.unique other,
      lists_offset lists, ?_⟩
    rw [List.length_map]
    exact counted
  · intro word some plain
    have filled : word.toList ≠ [] := fun empty => some (String.toList_eq_nil_iff.mp empty)
    constructor
    · rw [Needle.ofPattern, if_neg some, Pattern.read?_plain plain]
      cases Machine.fits (Pattern.pieceOfWord word.toList).outline <;> rfl
    · intro bytes
      obtain ⟨places, lists, counted⟩ :=
        Pattern.exists_count (.word word.toList) (decodeLossy bytes).toList
      rw [Pattern.begins_word filled] at lists
      refine ⟨places, lists, counted, ?_⟩
      rw [Needle.count, Needle.count, Needle.countIn, Needle.countIn, counted]
      exact countWord_le filled lists

/-- A letter as often as may be, which begins to match at each boundary of a text, the end
included, and a word that overlaps itself. -/
theorem pattern_count_begins_umlauts :
    Pattern.FoundBy (.repeated (.char (.single 'x')) 0 none) "äx"
        (fun position => [0, 2, 3].find? (position ≤ ·)) ∧
      (∃ positions, Seeks "äx" (fun position => [0, 2, 3].find? (position ≤ ·)) 0 positions ∧
        positions.length = 3) ∧
      "ää" ≠ "" ∧ (∀ c ∈ "ää".toList, Pattern.isMeta c = false) ∧
      (Needle.literal "ää").count (encode "äää") = 1 ∧
      ∃ places,
        Pattern.Lists (fun place => "ää".toList <+: (decodeLossy (encode "äää")).toList.drop place)
          0 places ∧ places.length = 2 := by
  have everywhere : Pattern.Lists
      ((Pattern.repeated (.char (.single 'x')) 0 none).Begins "äx".toList) 0 [0, 1, 2] := by
    refine ⟨by decide, fun place => ?_⟩
    have listed : place ∈ [0, 1, 2] ↔ place ≤ 2 := by simp; omega
    rw [listed]
    constructor
    · exact fun inside => ⟨Nat.zero_le _, place, .done inside⟩
    · exact fun begins => begins.2.inside
  have finds : Pattern.FoundBy (.repeated (.char (.single 'x')) 0 none) "äx"
      (fun position => [0, 2, 3].find? (position ≤ ·)) :=
    fun position place _ => (lists_offset everywhere).searches position place
  have plain : ∀ c ∈ "ää".toList, Pattern.isMeta c = false := by simp [Pattern.isMeta]
  obtain ⟨each, words⟩ := pattern_count_begins
  obtain ⟨positions, seeks, _, _, counted⟩ := each "x*" _ "äx" _ finds
  obtain ⟨_, counts⟩ := words "ää" (by decide) plain
  obtain ⟨places, lists, found, _⟩ := counts (encode "äää")
  have three : (Needle.pattern "x*" (.repeated (.char (.single 'x')) 0 none)).countIn
      "äx".toList = 3 := by decide +kernel
  have two : (Needle.pattern "ää" (.word "ää".toList)).count (encode "äää") = 2 := by
    decide +kernel
  have one : (Needle.literal "ää").count (encode "äää") = 1 := by decide
  exact ⟨finds, ⟨positions, seeks, counted.symm.trans three⟩, by decide, plain, one, places,
    lists, found.symm.trans two⟩

end Ancestry
