import Ancestry.Proofs.FileSystem.Changes

/-!
# Where names lead

Names that do not lead up lead to one place, which their idle names do not tell: that is where
they lead whenever they lead anywhere. Whatever stands in such a place is led to, as long as its
directories stand around it, no name is too long and nothing is asked for behind it.
-/

namespace Ancestry.FileSystem

variable {files : FileSystem} {here there root : Location} {names : List String}
  {stem next name : String}

/-- Where names lead from a location, unless they lead up or nowhere. -/
def placeOf (here : Location) (names : List String) : Location :=
  (names.filter (!Path.isIdle ·)).reverse ++ here

/-- An idle piece leads nowhere else. -/
theorem placeOf_idle (idle : Path.isIdle name = true) (here : Location) (names : List String) :
    placeOf here (name :: names) = placeOf here names := by
  rw [placeOf, List.filter_cons_of_neg (by simp [idle]), placeOf]

/-- A name leads one step down. -/
theorem placeOf_name (named : Path.isIdle name = false) (here : Location) (names : List String) :
    placeOf here (name :: names) = placeOf (name :: here) names := by
  rw [placeOf, List.filter_cons_of_pos (by simp [named]), List.reverse_cons, List.append_assoc]
  rfl

/-- Some names lead on from where those before them lead. -/
theorem placeOf_append (here : Location) (names more : List String) :
    placeOf here (names ++ more) = placeOf (placeOf here names) more := by
  rw [placeOf, placeOf, placeOf, List.filter_append, List.reverse_append, List.append_assoc]

/-- Names that lead somewhere and not up lead to their place, and none of them is too long. -/
theorem of_follow (onward : ".." ∉ names) (led : files.follow here names = .ok there) :
    there = placeOf here names ∧ ∀ name ∈ names, Utf8.size name ≤ nameBound := by
  induction names generalizing here with
  | nil => exact ⟨(Except.ok.inj led).symm, fun _ member => nomatch member⟩
  | cons name names inductionHypothesis =>
    simp only [List.mem_cons, not_or] at onward
    obtain ⟨further, stepped, _, led⟩ := follow_cons_iff.mp led
    obtain ⟨same, short⟩ := inductionHypothesis onward.2 led
    rw [List.forall_mem_cons]
    obtain ⟨_, ⟨idle, rfl⟩ | ⟨above, _⟩ | ⟨named, _, fits, rfl⟩⟩ := of_step stepped
    · have small : Utf8.size name ≤ nameBound := by
        rw [Path.isIdle, Bool.or_eq_true, decide_eq_true_eq, decide_eq_true_eq] at idle
        rcases idle with rfl | rfl <;> decide
      exact ⟨by rw [same, placeOf_idle idle], small, short⟩
    · exact absurd above.symm onward.1
    · exact ⟨by rw [same, placeOf_name named], fits, short⟩

/-- Around whatever stands somewhere there are directories. -/
theorem Closed.around (closed : Closed files) {inner : List String} (filled : inner ≠ [])
    (present : (files.entry? (inner ++ here)).isSome = true) :
    files.entry? here = some .directory := by
  induction inner with
  | nil => exact absurd rfl filled
  | cons name inner inductionHypothesis =>
    have stands := closed name (inner ++ here) present
    by_cases none : inner = []
    · rw [none] at stands
      exact stands
    · exact inductionHypothesis none (by rw [stands]; rfl)

/-- Whatever stands in the place of names is led to, where the last of them is not idle. -/
theorem Closed.follow (closed : Closed files) (stands : files.entry? here = some .directory)
    (fits : ∀ name ∈ names, name ≠ ".." ∧ Utf8.size name ≤ nameBound)
    (ends : ∀ last ∈ names.getLast?, Path.isIdle last = false)
    (present : (files.entry? (placeOf here names)).isSome = true) :
    files.follow here names = .ok (placeOf here names) := by
  induction names generalizing here with
  | nil => rfl
  | cons name names inductionHypothesis =>
    rw [List.forall_mem_cons] at fits
    have later : ∀ last ∈ names.getLast?, Path.isIdle last = false := by
      cases names with
      | nil => exact fun _ member => nomatch member
      | cons second names => exact fun last member => ends last (by rwa [List.getLast?_cons_cons])
    rw [follow_cons_iff, step, if_neg (not_not.mpr stands), if_neg fits.1.1,
      if_neg (Nat.not_lt.mpr fits.1.2)]
    cases idle : Path.isIdle name with
    | true =>
      rw [placeOf_idle idle] at present ⊢
      exact ⟨here, rfl, by rw [stands]; rfl, inductionHypothesis stands fits.2 later present⟩
    | false =>
      rw [placeOf_name idle] at present ⊢
      refine ⟨name :: here, rfl, ?_⟩
      cases names with
      | nil => exact ⟨present, rfl⟩
      | cons second names =>
        -- the last name is not idle, so that something stands in this place
        have inner : ((second :: names).filter (!Path.isIdle ·)).reverse ≠ [] := by
          have whole := List.getLast?_eq_some_getLast (List.cons_ne_nil second names)
          have named := later _ whole
          rw [ne_eq, List.reverse_eq_nil_iff, List.filter_eq_nil_iff]
          exact fun all => all _ (List.mem_of_getLast? whole) (by simp [named])
        have around := closed.around inner present
        exact ⟨by rw [around]; rfl, inductionHypothesis around fits.2 later present⟩

/-- What is found below a directory is led to from there. -/
theorem Standing.follow_of_find (standing : Standing files stem root)
    (found : files.find (Path.below stem next) = .ok there) :
    files.follow root (Path.pieces ⟨next⟩) = .ok there := by
  obtain ⟨_, led⟩ := find_iff.mp found
  rwa [Path.pieces_below, follow_append, standing.led] at led

/-- What is found below a path is found in a directory. -/
theorem exists_standing (found : files.find (Path.below stem next) = .ok there) :
    ∃ root, Standing files stem root := by
  obtain ⟨_, led⟩ := find_iff.mp found
  rw [Path.pieces_below] at led
  obtain ⟨root, led, further⟩ := follow_append_iff.mp led
  cases pieces : Path.pieces ⟨next⟩ with
  | nil => exact absurd (List.map_eq_nil_iff.mp pieces) (Pieces.split_ne_nil '/' next.toList)
  | cons first rest =>
    rw [pieces] at further
    obtain ⟨_, stepped, _⟩ := follow_cons_iff.mp further
    exact ⟨root, led, (of_step stepped).1⟩

/-- A path in order below a directory is found where its names lead. -/
theorem Standing.find_of_follow (standing : Standing files stem root)
    (sound : textFault? (Path.below stem next) = none)
    (led : files.follow root (Path.pieces ⟨next⟩) = .ok there) :
    files.find (Path.below stem next) = .ok there := by
  rw [find_iff, Path.pieces_below]
  exact ⟨sound, follow_append_iff.mpr ⟨root, standing.led, led⟩⟩

end Ancestry.FileSystem
