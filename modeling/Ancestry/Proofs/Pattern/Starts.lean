import Ancestry.Pattern.Starts
import Mathlib.Logic.Function.Iterate
import Mathlib.Order.Bounds.Basic

/-!
# The places that are found

A set of places is computed for every part of a pattern: those where a stretch begins that the
part matches and that ends at a place of a given set. A repetition is worked off step by step. As
steps lead to no later place, steps that stay where they are may be left out, and then there are
no more of them than places. So the search stops early only where going on would change nothing.
-/

namespace Ancestry.Pattern

variable {text : List Char} {pattern inner : Pattern} {start stop place least : Nat}
  {most : Option Nat}

/-- A stretch that is matched lies in the text. -/
theorem Matches.inside (matched : Matches text pattern start stop) :
    start ≤ stop ∧ stop ≤ text.length := by
  induction matched with
  | empty inside => exact ⟨Nat.le_refl _, inside⟩
  | char found _ =>
    obtain ⟨inside, _⟩ := List.getElem?_eq_some_iff.mp found
    exact ⟨Nat.le_succ _, inside⟩
  | look inside _ => exact ⟨Nat.le_refl _, inside⟩
  | concat _ _ front back => exact ⟨front.1.trans back.1, back.2⟩
  | left _ inside => exact inside
  | right _ inside => exact inside
  | done inside => exact ⟨Nat.le_refl _, inside⟩
  | more _ _ _ front back => exact ⟨front.1.trans back.1, back.2⟩

/-- A pattern begins to match at a place. -/
def Begins (pattern : Pattern) (text : List Char) (place : Nat) : Prop :=
  ∃ stop, Matches text pattern place stop

/-- A pattern begins within the text or at its end. -/
theorem Begins.inside (begins : pattern.Begins text place) : place ≤ text.length := by
  obtain ⟨stop, matched⟩ := begins
  exact matched.inside.1.trans matched.inside.2

section repeating

variable {relation : Nat → Nat → Prop} {length count : Nat} {step : Nat → Nat}

/-- So many stretches, one behind another. -/
def Repeats (relation : Nat → Nat → Prop) : (count : Nat) → (start stop : Nat) → Prop
  | 0, start, stop => start = stop
  | count + 1, start, stop => ∃ middle, relation start middle ∧ Repeats relation count middle stop

/-- So many repetitions and so many more meet somewhere between. -/
theorem repeats_add_iff {first second : Nat} : Repeats relation (first + second) start stop ↔
    ∃ middle, Repeats relation first start middle ∧ Repeats relation second middle stop := by
  induction first generalizing start with
  | zero => simp [Repeats]
  | succ first inductionHypothesis =>
    simp only [Nat.add_right_comm, Repeats, inductionHypothesis]
    constructor
    · rintro ⟨next, front, middle, rest, back⟩
      exact ⟨middle, ⟨next, front, rest⟩, back⟩
    · rintro ⟨middle, ⟨next, front, rest⟩, back⟩
      exact ⟨next, front, middle, rest, back⟩

/-- Stretches without characters may be left out, and then there are no more than characters. -/
theorem Repeats.shortened (forward : ∀ start stop, relation start stop → start ≤ stop)
    (repeats : Repeats relation count start stop) :
    start ≤ stop ∧ ∃ fewer, start + fewer ≤ stop ∧ Repeats relation fewer start stop := by
  induction count generalizing start with
  | zero =>
    obtain rfl := repeats
    exact ⟨Nat.le_refl _, 0, Nat.le_refl _, rfl⟩
  | succ count inductionHypothesis =>
    obtain ⟨middle, front, rest⟩ := repeats
    have ahead := forward start middle front
    obtain ⟨behind, fewer, enough, rest⟩ := inductionHypothesis rest
    refine ⟨ahead.trans behind, ?_⟩
    rcases Nat.eq_or_lt_of_le ahead with rfl | ahead
    · exact ⟨fewer, enough, rest⟩
    · exact ⟨fewer + 1, by omega, middle, front, rest⟩

/-- A step takes a set of places in a text to the places that stand in a relation to one of
them. -/
def Computes (length : Nat) (step : Nat → Nat) (relation : Nat → Nat → Prop) : Prop :=
  ∀ ends : Nat, (∀ place, ends.testBit place = true → place ≤ length) →
    ∀ start, (step ends).testBit start = true ↔
      ∃ stop, relation start stop ∧ ends.testBit stop = true

/-- A step that leads to no later place stays in the text. -/
theorem Computes.inside (computes : Computes length step relation)
    (forward : ∀ start stop, relation start stop → start ≤ stop) {ends : Nat}
    (inside : ∀ place, ends.testBit place = true → place ≤ length) :
    ∀ place, (step ends).testBit place = true → place ≤ length := by
  intro place member
  obtain ⟨stop, related, last⟩ := (computes ends inside place).mp member
  exact (forward place stop related).trans (inside stop last)

/-- A step that changes nothing may be left out. -/
theorem applyTimes_eq (step : Nat → Nat) (count places : Nat) :
    applyTimes step count places = step^[count] places := by
  induction count generalizing places with
  | zero => rfl
  | succ count inductionHypothesis =>
    rw [applyTimes]
    split
    · rename_i still
      exact (Function.iterate_fixed still _).symm
    · rw [inductionHypothesis, Function.iterate_succ_apply]

/-- Places are reached by steps that add the ends again. -/
theorem reachWithin_eq (step : Nat → Nat) (ends count places : Nat) :
    reachWithin step ends count places =
      applyTimes (fun places => ends ||| step places) count places := by
  induction count generalizing places with
  | zero => rfl
  | succ count inductionHypothesis => rw [reachWithin, applyTimes, inductionHypothesis]

/-- A step that is repeated computes the repeated relation, by induction on the number. -/
theorem Computes.iterate (computes : Computes length step relation)
    (forward : ∀ start stop, relation start stop → start ≤ stop) (count : Nat) :
    Computes length step^[count] (Repeats relation count) := by
  intro ends inside
  induction count with
  | zero => simp [Repeats]
  | succ count inductionHypothesis =>
    have within : ∀ place, (step^[count] ends).testBit place = true → place ≤ length := by
      intro place member
      obtain ⟨stop, repeats, last⟩ := (inductionHypothesis place).mp member
      exact (repeats.shortened forward).1.trans (inside stop last)
    intro start
    rw [Function.iterate_succ_apply', computes _ within]
    simp only [inductionHypothesis, Repeats]
    constructor
    · rintro ⟨middle, front, stop, rest, last⟩
      exact ⟨stop, ⟨middle, front, rest⟩, last⟩
    · rintro ⟨stop, ⟨middle, front, rest⟩, last⟩
      exact ⟨middle, front, stop, rest, last⟩

/-- A step that is repeated at most so often computes any lower number of repetitions. -/
theorem Computes.reach (computes : Computes length step relation)
    (forward : ∀ start stop, relation start stop → start ≤ stop) (most : Nat) :
    Computes length (fun ends => reachWithin step ends most ends)
      fun start stop => ∃ count ≤ most, Repeats relation count start stop := by
  intro ends inside
  simp only [reachWithin_eq, applyTimes_eq]
  induction most with
  | zero => simp [Repeats]
  | succ most inductionHypothesis =>
    have within : ∀ place, ((fun places => ends ||| step places)^[most] ends).testBit place = true →
        place ≤ length := by
      intro place member
      obtain ⟨stop, ⟨count, _, repeats⟩, last⟩ := (inductionHypothesis place).mp member
      exact (repeats.shortened forward).1.trans (inside stop last)
    intro start
    rw [Function.iterate_succ_apply', Nat.testBit_or, Bool.or_eq_true, computes _ within]
    simp only [inductionHypothesis]
    constructor
    · rintro (last | ⟨middle, front, stop, ⟨count, few, rest⟩, last⟩)
      · exact ⟨start, ⟨0, Nat.zero_le _, rfl⟩, last⟩
      · exact ⟨stop, ⟨count + 1, Nat.succ_le_succ few, middle, front, rest⟩, last⟩
    · rintro ⟨stop, ⟨count, few, repeats⟩, last⟩
      cases count with
      | zero =>
        obtain rfl := repeats
        exact .inl last
      | succ count =>
        obtain ⟨middle, front, rest⟩ := repeats
        exact .inr ⟨middle, front, stop, ⟨count, Nat.le_of_succ_le_succ few, rest⟩, last⟩

end repeating

/-- A repetition matches as many stretches one behind another as its bounds allow. -/
theorem matches_repeated_iff : Matches text (.repeated inner least most) start stop ↔
    stop ≤ text.length ∧ ∃ count, least ≤ count ∧ (∀ bound ∈ most, count ≤ bound) ∧
      Repeats (Matches text inner) count start stop := by
  constructor
  · intro matched
    refine ⟨matched.inside.2, ?_⟩
    generalize whole : Pattern.repeated inner least most = pattern at matched
    induction matched generalizing inner least most with
    | done _ =>
      cases whole
      exact ⟨0, Nat.le_refl _, fun _ _ => Nat.zero_le _, rfl⟩
    | @more _ _ _ _ middle _ allowed front _ _ inductionHypothesis =>
      cases whole
      obtain ⟨count, enough, few, rest⟩ := inductionHypothesis rfl
      refine ⟨count + 1, by omega, fun bound bounded => ?_, middle, front, rest⟩
      obtain rfl := bounded
      have fewer := few (bound - 1) rfl
      have some : bound ≠ 0 := fun none => allowed (by rw [none])
      omega
    | _ => cases whole
  · rintro ⟨inside, count, enough, few, repeats⟩
    induction count generalizing start least most with
    | zero =>
      obtain rfl := repeats
      obtain rfl := Nat.le_zero.mp enough
      exact .done inside
    | succ count inductionHypothesis =>
      obtain ⟨middle, front, rest⟩ := repeats
      refine .more ?_ front (inductionHypothesis (by omega) ?_ rest)
      · rintro rfl
        exact Nat.not_succ_le_zero count (few 0 rfl)
      · rintro bound bounded
        obtain ⟨wider, rfl, rfl⟩ := Option.map_eq_some_iff.mp bounded
        have fewer := few wider rfl
        omega

section places

/-- The first bit, and the others, of a number that is read from its last bits on. -/
theorem testBit_double (number : Nat) (bit : Bool) : ∀ place,
    (2 * number + bit.toNat).testBit place =
      match place with
      | 0 => bit
      | place + 1 => number.testBit place
  | 0 => by cases bit <;> simp [Nat.testBit_zero]
  | place + 1 => by
    have half : (2 * number + bit.toNat) / 2 = number := by cases bit <;> simp; omega
    rw [Nat.testBit_succ, half]

/-- The set of places at which a character satisfies a test. -/
theorem testBit_charPlaces (holds : Char → Bool) (text : List Char) (place : Nat) :
    (charPlaces holds text).testBit place = true ↔ ∃ c, text[place]? = some c ∧ holds c = true := by
  induction text generalizing place with
  | nil => simp [charPlaces]
  | cons c rest inductionHypothesis =>
    rw [charPlaces, testBit_double]
    cases place with
    | zero => simp
    | succ place => simpa using inductionHypothesis place

/-- The set of places at which a condition on the neighbours holds. -/
theorem testBit_lookPlaces (condition : Look) (last : Option Char) (text : List Char)
    (place : Nat) : (lookPlaces condition last text).testBit place = true ↔
      place ≤ text.length ∧ condition.holds (if place = 0 then last else before text place)
        text[place]? = true := by
  induction text generalizing last place with
  | nil =>
    rw [lookPlaces]
    cases place with
    | zero => cases holds : condition.holds last none <;> simp [holds]
    | succ place => cases condition.holds last none <;> simp [Nat.testBit_succ]
  | cons c rest inductionHypothesis =>
    rw [lookPlaces, testBit_double]
    cases place with
    | zero => simp
    | succ place =>
      simp only [inductionHypothesis]
      cases place <;> simp [before]

end places

/-- How many stretches are tried behind those that a repetition needs. -/
def optional (length least : Nat) : (most : Option Nat) → Nat
  | none => length + 1
  | some most => most - least

/-- Behind the stretches that a repetition needs come those that it allows. Where it allows any
number, one more than there are places is enough. -/
theorem repeats_optional_iff {relation : Nat → Nat → Prop} {length : Nat}
    (forward : ∀ start stop, relation start stop → start ≤ stop) (inside : stop ≤ length)
    (allowed : ∀ bound ∈ most, least ≤ bound) :
    (∃ middle, Repeats relation least start middle ∧
      ∃ count ≤ optional length least most, Repeats relation count middle stop) ↔
      ∃ count, least ≤ count ∧ (∀ bound ∈ most, count ≤ bound) ∧
        Repeats relation count start stop := by
  constructor
  · rintro ⟨middle, needed, count, few, further⟩
    refine ⟨least + count, Nat.le_add_right _ _, ?_, repeats_add_iff.mpr ⟨middle, needed, further⟩⟩
    rintro bound ⟨⟩
    have enough := allowed bound rfl
    rw [optional] at few
    omega
  · rintro ⟨count, enough, few, repeats⟩
    obtain ⟨more, rfl⟩ := Nat.exists_eq_add_of_le enough
    obtain ⟨middle, needed, further⟩ := repeats_add_iff.mp repeats
    refine ⟨middle, needed, ?_⟩
    cases most with
    | none =>
      obtain ⟨_, fewer, short, further⟩ := further.shortened forward
      exact ⟨fewer, by rw [optional]; omega, further⟩
    | some bound =>
      have bounded := few bound rfl
      exact ⟨more, by rw [optional]; omega, further⟩

/-- The places that are computed for a pattern are those where it begins to match. -/
theorem plan_computes (text : List Char) (pattern : Pattern) :
    Computes text.length ((pattern.plan text).starts text.length) (Matches text pattern) := by
  induction pattern with
  | empty =>
    intro ends inside start
    constructor
    · intro last
      exact ⟨start, .empty (inside start last), last⟩
    · rintro ⟨stop, matched, last⟩
      cases matched with
      | empty _ => exact last
  | char members =>
    intro ends inside start
    rw [plan, Plan.starts, Nat.testBit_and, Bool.and_eq_true, Nat.testBit_shiftRight,
      testBit_charPlaces, Nat.add_comm]
    constructor
    · rintro ⟨last, c, found, member⟩
      exact ⟨start + 1, .char found member, last⟩
    · rintro ⟨stop, matched, last⟩
      cases matched with
      | char found member => exact ⟨last, _, found, member⟩
  | look condition =>
    intro ends inside start
    have holds : (lookPlaces condition none text).testBit start = true ↔
        start ≤ text.length ∧ condition.holds (before text start) text[start]? = true := by
      rw [testBit_lookPlaces]
      cases start <;> rfl
    rw [plan, Plan.starts, Nat.testBit_and, Bool.and_eq_true, holds]
    constructor
    · rintro ⟨last, within, met⟩
      exact ⟨start, .look within met, last⟩
    · rintro ⟨stop, matched, last⟩
      cases matched with
      | look within met => exact ⟨last, within, met⟩
  | concat first second front back =>
    intro ends inside start
    have within := back.inside (fun _ _ matched => matched.inside.1) inside
    rw [plan, Plan.starts, front _ within]
    simp only [back ends inside]
    constructor
    · rintro ⟨middle, begun, stop, ended, last⟩
      exact ⟨stop, .concat begun ended, last⟩
    · rintro ⟨stop, matched, last⟩
      cases matched with
      | concat begun ended => exact ⟨_, begun, stop, ended, last⟩
  | either left right first second =>
    intro ends inside start
    rw [plan, Plan.starts, Nat.testBit_or, Bool.or_eq_true, first ends inside, second ends inside]
    constructor
    · rintro (⟨stop, matched, last⟩ | ⟨stop, matched, last⟩)
      · exact ⟨stop, .left matched, last⟩
      · exact ⟨stop, .right matched, last⟩
    · rintro ⟨stop, matched, last⟩
      cases matched with
      | left matched => exact .inl ⟨stop, matched, last⟩
      | right matched => exact .inr ⟨stop, matched, last⟩
  | repeated inner least most computes =>
    intro ends inside start
    have forward : ∀ start stop, Matches text inner start stop → start ≤ stop :=
      fun _ _ matched => matched.inside.1
    have whole : ((repeated inner least most).plan text).starts text.length ends =
        if most.any (· < least) then 0
        else applyTimes ((inner.plan text).starts text.length) least
          (reachWithin ((inner.plan text).starts text.length) ends
            (optional text.length least most) ends) := by
      cases most <;> rfl
    have conflict : most.any (· < least) = true ↔ ∃ bound ∈ most, bound < least := by
      cases most <;> simp
    rw [whole]
    by_cases excluded : ∃ bound ∈ most, bound < least
    · obtain ⟨bound, bounded, short⟩ := excluded
      rw [if_pos (conflict.mpr ⟨bound, bounded, short⟩), Nat.zero_testBit]
      constructor
      · intro impossible
        cases impossible
      · rintro ⟨stop, matched, _⟩
        obtain ⟨_, count, enough, few, _⟩ := matches_repeated_iff.mp matched
        exact absurd (enough.trans (few bound bounded)) (Nat.not_le.mpr short)
    · have allowed : ∀ bound ∈ most, least ≤ bound := fun bound bounded =>
        Nat.not_lt.mp fun short => excluded ⟨bound, bounded, short⟩
      rw [if_neg (excluded ∘ conflict.mp)]
      have reach := computes.reach forward (optional text.length least most)
      have within := reach.inside (fun _ _ ⟨_, _, repeats⟩ => (repeats.shortened forward).1) inside
      rw [applyTimes_eq, computes.iterate forward least _ within]
      simp only [reach ends inside, matches_repeated_iff]
      constructor
      · rintro ⟨middle, needed, stop, further, last⟩
        refine ⟨stop, ⟨inside stop last, ?_⟩, last⟩
        exact (repeats_optional_iff forward (inside stop last) allowed).mp ⟨middle, needed, further⟩
      · rintro ⟨stop, ⟨within, repeats⟩, last⟩
        obtain ⟨middle, needed, further⟩ :=
          (repeats_optional_iff forward within allowed).mpr repeats
        exact ⟨middle, needed, stop, further, last⟩

/-- A place is in the set that is computed for a pattern if the pattern begins to match there. -/
theorem testBit_starts (pattern : Pattern) (text : List Char) (place : Nat) :
    (pattern.starts text).testBit place = true ↔ pattern.Begins text place := by
  have all (place : Nat) : (Nat.pow 2 (text.length + 1) - 1).testBit place = true ↔
      place ≤ text.length := by
    rw [Nat.pow_eq, Nat.testBit_two_pow_sub_one, decide_eq_true_iff, Nat.lt_succ_iff]
  rw [starts, plan_computes text pattern _ fun place => (all place).mp]
  simp only [all]
  constructor
  · rintro ⟨stop, matched, _⟩
    exact ⟨stop, matched⟩
  · rintro ⟨stop, matched⟩
    exact ⟨stop, matched, matched.inside.2⟩

end Ancestry.Pattern
