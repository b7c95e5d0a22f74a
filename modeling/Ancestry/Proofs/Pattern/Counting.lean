import Ancestry.Proofs.Pattern.Starts
import Mathlib.Data.Nat.EvenOddRec
import Mathlib.Data.Nat.Find

/-!
# Counting the places that are found

The first place of a set is the last bit of a number, and the first one from a place on is found
when the bits before are shifted out. Whoever searches for the first place, and again from behind
the place that was found, meets all of them in order, each once. So patterns are counted where
they begin to match.
-/

namespace Ancestry.Pattern

variable {places place start : Nat}

section first

/-- Twice a number has the bits of the number, moved by one place. -/
theorem testBit_twice (number place : Nat) :
    (2 * number).testBit (place + 1) = number.testBit place :=
  testBit_double number false (place + 1)

/-- The first place in an even number is the one in its half, moved by one place. -/
theorem firstPlace?_even (number : Nat) :
    firstPlace? (2 * number) = (firstPlace? number).map (· + 1) := by
  rcases Nat.eq_zero_or_pos number with rfl | filled
  · rfl
  have kept : 2 * number &&& (2 * number - 1) = 2 * (number &&& (number - 1)) := by
    apply Nat.eq_of_testBit_eq
    intro place
    cases place with
    | zero => simp [Nat.testBit_zero]
    | succ place =>
      have half : (2 * number - 1) / 2 = number - 1 := by omega
      rw [Nat.testBit_and, testBit_twice, Nat.testBit_succ (2 * number - 1), half,
        testBit_twice, Nat.testBit_and]
  have fewer : number &&& (number - 1) < number := Nat.lt_of_le_of_lt Nat.and_le_right (by omega)
  rw [firstPlace?, firstPlace?, if_neg (by omega), if_neg (by omega), kept, ← Nat.mul_sub,
    Nat.log2_two_mul (by omega)]
  rfl

/-- An odd number holds the first place of all. -/
theorem firstPlace?_odd (number : Nat) : firstPlace? (2 * number + 1) = some 0 := by
  have kept : (2 * number + 1) &&& (2 * number) = 2 * number := by
    apply Nat.eq_of_testBit_eq
    intro place
    cases place with
    | zero => simp [Nat.testBit_zero]
    | succ place =>
      have half : (2 * number + 1) / 2 = number := by omega
      rw [Nat.testBit_and, Nat.testBit_succ (2 * number + 1), half, testBit_twice,
        Bool.and_self]
  rw [firstPlace?, if_neg (by omega), Nat.add_sub_cancel, kept, Nat.add_sub_cancel_left]
  rfl

/-- The first place of a set is found. -/
theorem firstPlace?_iff : firstPlace? places = some place ↔
    IsLeast {place | places.testBit place = true} place := by
  induction places using Nat.evenOddRec generalizing place with
  | h0 => simp [firstPlace?, IsLeast]
  | h_even number inductionHypothesis =>
    rw [firstPlace?_even, Option.map_eq_some_iff]
    simp only [inductionHypothesis]
    constructor
    · rintro ⟨half, ⟨member, least⟩, rfl⟩
      refine ⟨(testBit_twice number half).trans member, ?_⟩
      rintro (_ | other) present
      · exact absurd present (by simp)
      · exact Nat.succ_le_succ (least ((testBit_twice number other).symm.trans present))
    · rintro ⟨member, least⟩
      cases place with
      | zero => exact absurd member (by simp)
      | succ half =>
        refine ⟨half, ⟨(testBit_twice number half).symm.trans member, ?_⟩, rfl⟩
        intro other present
        exact Nat.le_of_succ_le_succ (least ((testBit_twice number other).trans present))
  | h_odd number _ =>
    have first : (2 * number + 1).testBit 0 = true := by simp [Nat.testBit_zero]
    rw [firstPlace?_odd, Option.some_inj]
    constructor
    · rintro rfl
      exact ⟨first, fun other _ => Nat.zero_le other⟩
    · rintro ⟨_, least⟩
      exact (Nat.le_zero.mp (least first)).symm

/-- The first place from a place on is found. -/
theorem nextPlace?_iff : nextPlace? places start = some place ↔
    IsLeast {place | start ≤ place ∧ places.testBit place = true} place := by
  rw [nextPlace?, Option.map_eq_some_iff]
  simp only [firstPlace?_iff, Nat.testBit_shiftRight]
  constructor
  · rintro ⟨distance, ⟨member, least⟩, rfl⟩
    refine ⟨⟨Nat.le_add_right _ _, member⟩, ?_⟩
    rintro other ⟨behind, present⟩
    obtain ⟨further, rfl⟩ := Nat.exists_eq_add_of_le behind
    exact Nat.add_le_add_left (least present) start
  · rintro ⟨⟨behind, member⟩, least⟩
    obtain ⟨distance, rfl⟩ := Nat.exists_eq_add_of_le behind
    refine ⟨distance, ⟨member, fun other present => ?_⟩, rfl⟩
    have far := least ⟨Nat.le_add_right start other, present⟩
    omega

end first

section counting

variable {begins : Nat → Prop} {search : Nat → Option Nat} {length most : Nat} {places : List Nat}

/-- The places from a place on that have a property, each once and in order. -/
structure Lists (begins : Nat → Prop) (start : Nat) (places : List Nat) : Prop where
  ordered : places.Pairwise (· < ·)
  member : ∀ place, place ∈ places ↔ start ≤ place ∧ begins place

/-- Where no place has the property the list is empty. -/
theorem Lists.nil (none : ∀ place, start ≤ place → ¬ begins place) : Lists begins start [] where
  ordered := .nil
  member place := by simpa using none place

/-- The first place stands before those behind it. -/
theorem Lists.cons (least : IsLeast {place | start ≤ place ∧ begins place} place)
    (lists : Lists begins (place + 1) places) : Lists begins start (place :: places) where
  ordered := .cons (fun later present => ((lists.member later).mp present).1) lists.ordered
  member other := by
    rw [List.mem_cons, lists.member]
    constructor
    · rintro (rfl | ⟨later, present⟩)
      · exact least.1
      · exact ⟨least.1.1.trans (Nat.le_of_succ_le later), present⟩
    · rintro ⟨behind, present⟩
      rcases Nat.eq_or_lt_of_le (least.2 ⟨behind, present⟩) with same | later
      · exact .inl same.symm
      · exact .inr ⟨later, present⟩

/-- The first place of the list is the least that has the property. -/
theorem Lists.head (lists : Lists begins start (place :: places)) :
    IsLeast {place | start ≤ place ∧ begins place} place := by
  refine ⟨(lists.member place).mp List.mem_cons_self, fun other present => ?_⟩
  rcases List.mem_cons.mp ((lists.member other).mpr present) with rfl | later
  · exact Nat.le_refl _
  · exact (List.rel_of_pairwise_cons lists.ordered later).le

/-- The rest of the list is that of the places behind the first one. -/
theorem Lists.tail (lists : Lists begins start (place :: places)) :
    Lists begins (place + 1) places where
  ordered := lists.ordered.of_cons
  member other := by
    have whole := lists.member other
    rw [List.mem_cons] at whole
    constructor
    · intro present
      have later : place < other := List.rel_of_pairwise_cons lists.ordered present
      exact ⟨later, (whole.mp (.inr present)).2⟩
    · rintro ⟨later, present⟩
      have behind : start ≤ other := lists.head.1.1.trans (Nat.le_of_succ_le later)
      rcases whole.mpr ⟨behind, present⟩ with rfl | listed
      · exact absurd later (Nat.lt_irrefl _)
      · exact listed

/-- A search that finds the first of some places, from a place on. -/
def Searches (begins : Nat → Prop) (search : Nat → Option Nat) : Prop :=
  ∀ start place, search start = some place ↔ IsLeast {place | start ≤ place ∧ begins place} place

/-- Where nothing is found there is nothing. -/
theorem Searches.none (searches : Searches begins search) (nothing : search start = none) :
    ∀ place, start ≤ place → ¬ begins place := by
  classical
  intro place behind begun
  have some : ∃ place, start ≤ place ∧ begins place := ⟨place, behind, begun⟩
  have found := (searches start (Nat.find some)).mpr
    ⟨Nat.find_spec some, fun _ present => Nat.find_min' some present⟩
  rw [nothing] at found
  cases found

/-- A search through the places in their order finds the first one from a place on. -/
theorem Lists.searches (lists : Lists begins 0 places) :
    Searches begins fun start => places.find? (start ≤ ·) := by
  intro start place
  rw [List.find?_eq_some_iff_append]
  simp only [decide_eq_true_eq, Bool.not_eq_true', decide_eq_false_iff_not]
  constructor
  · rintro ⟨behind, early, late, rfl, before⟩
    have ordered := lists.ordered
    refine ⟨⟨behind, ((lists.member place).mp (by simp)).2⟩, ?_⟩
    rintro other ⟨later, begun⟩
    have present := (lists.member other).mpr ⟨Nat.zero_le _, begun⟩
    rcases List.mem_append.mp present with among | among
    · exact absurd later (before other among)
    · rcases List.mem_cons.mp among with rfl | among
      · exact Nat.le_refl _
      · exact (List.rel_of_pairwise_cons (List.pairwise_append.mp ordered).2.1 among).le
  · rintro ⟨⟨behind, begun⟩, least⟩
    obtain ⟨early, late, rfl⟩ :=
      List.append_of_mem ((lists.member place).mpr ⟨Nat.zero_le _, begun⟩)
    refine ⟨behind, early, late, rfl, fun other among later => ?_⟩
    have present := ((lists.member other).mp (List.mem_append_left _ among)).2
    have before : other < place :=
      (List.pairwise_append.mp lists.ordered).2.2 other among place List.mem_cons_self
    exact absurd (least ⟨later, present⟩) (Nat.not_le.mpr before)

/-- Searching again and again counts all places. -/
theorem exists_lists (searches : Searches begins search)
    (inside : ∀ place, begins place → place ≤ length) (enough : length < start + most) :
    ∃ places, Lists begins start places ∧
      countFound search length most start = places.length := by
  have outside {start : Nat} (past : length < start) : ∀ place, start ≤ place → ¬ begins place :=
    fun place behind begun => absurd (inside place begun) (by omega)
  induction most generalizing start with
  | zero => exact ⟨[], .nil (outside enough), rfl⟩
  | succ most inductionHypothesis =>
    rw [countFound]
    split
    · rename_i past
      exact ⟨[], .nil (outside past), rfl⟩
    · cases found : search start with
      | none => exact ⟨[], .nil (searches.none found), rfl⟩
      | some place =>
        have least := (searches start place).mp found
        have behind := least.1.1
        have less : length < place + 1 + most := by omega
        obtain ⟨places, lists, counted⟩ := inductionHypothesis less
        exact ⟨place :: places, .cons least lists, congrArg (· + 1) counted⟩

end counting

/-- A pattern is counted at the places where it begins to match. -/
theorem exists_count (pattern : Pattern) (text : List Char) :
    ∃ places, Lists (pattern.Begins text) 0 places ∧ pattern.count text = places.length := by
  refine exists_lists ?_ ?_ (Nat.lt_add_left 0 (Nat.lt_succ_self text.length))
  · intro start place
    simp only [nextPlace?_iff, testBit_starts]
  · exact fun place begins => begins.inside

/-- Matches that overlap are counted, each from where it begins. -/
example : (Pattern.word ['a', 'a']).count ['a', 'a', 'a'] = 2 := by decide +kernel

end Ancestry.Pattern
