import Ancestry.Proofs.FileSystem.Places

/-!
# Steps up

What is found under a path stays there when more is put into a file system, but a path that led
nowhere may come to lead to something old: a directory that is made in front of a step up opens the
way back. Where every step up starts from something that is there already, this cannot happen: a
path is found where something stood only if it was found there before.
-/

namespace Ancestry.FileSystem

variable {files after : FileSystem} {here next place : Location} {names more : List String}
  {name : String} {path : Path}

/-- Every step up starts from something that is there. -/
def Grounded (files : FileSystem) (here : Location) (names : List String) : Prop :=
  ∀ front back, names = front ++ ".." :: back → ∃ there, files.follow here front = .ok there

/-- Names that do not lead up have no step up. -/
theorem grounded_of_onward (files : FileSystem) (here : Location) (onward : ".." ∉ names) :
    Grounded files here names := by
  rintro front back rfl
  exact absurd (List.mem_append_right front List.mem_cons_self) onward

/-- So have more names that do not lead up, behind others. -/
theorem Grounded.append (grounded : Grounded files here names) (onward : ".." ∉ more) :
    Grounded files here (names ++ more) := by
  intro front back whole
  obtain ⟨middle, _, inside⟩ | ⟨middle, rfl, rest⟩ := List.append_eq_append_iff.mp whole
  · exact absurd (inside ▸ List.mem_append_right middle List.mem_cons_self) onward
  · cases middle with
    | nil =>
      have inside : more = ".." :: back := rest.symm
      exact absurd (inside ▸ List.mem_cons_self) onward
    | cons first middle =>
      obtain ⟨rfl, _⟩ := List.cons.inj rest
      exact grounded front middle rfl

/-- What is grounded along some names is so along the first of them. -/
theorem Grounded.front (grounded : Grounded files here (names ++ more)) :
    Grounded files here names := by
  rintro front back rfl
  exact grounded front (back ++ more) (by simp)

/-- What follows a step goes on from where the step leads. -/
theorem Grounded.tail (grounded : Grounded files here (name :: names))
    (stepped : files.step here name = .ok next) : Grounded files next names := by
  intro front back whole
  obtain ⟨there, led⟩ := grounded (name :: front) back (congrArg (name :: ·) whole)
  obtain ⟨other, same, _, led⟩ := follow_cons_iff.mp led
  obtain rfl := Except.ok.inj (stepped.symm.trans same)
  exact ⟨there, led⟩

/-- From where nothing is there is no step up. -/
theorem Grounded.onward (grounded : Grounded files here (name :: names))
    (stepped : files.step here name = .ok next) (vacant : files.entry? next = none) :
    ".." ∉ names := by
  intro member
  obtain ⟨front, back, whole⟩ := List.append_of_mem member
  obtain ⟨_, led⟩ := grounded (name :: front) back (congrArg (name :: ·) whole)
  obtain ⟨other, same, present, _⟩ := follow_cons_iff.mp led
  obtain rfl := Except.ok.inj (stepped.symm.trans same)
  rw [vacant] at present
  cases present

/-- Names that do not lead up lead from a new place to nothing old. -/
theorem Closed.vacant_onward (closed : Closed files) (onward : ".." ∉ names)
    (vacant : files.entry? here = none) (led : after.follow here names = .ok place) :
    files.entry? place = none := by
  obtain ⟨rfl, _⟩ := of_follow onward led
  by_contra present
  have filled : (names.filter (!Path.isIdle ·)).reverse ≠ [] := by
    intro none
    rw [placeOf, none] at present
    exact present vacant
  have around := closed.around filled (Option.isSome_iff_ne_none.mpr present)
  rw [vacant] at around
  cases around

/-- Names that lead to something old led there before, when no step up starts from a new place. -/
theorem Covers.follow_back (covers : Covers files after) (closed : Closed files)
    (grounded : Grounded files here names) (old : (files.entry? here).isSome = true)
    (led : after.follow here names = .ok place) (present : (files.entry? place).isSome = true) :
    files.follow here names = .ok place := by
  induction names generalizing here with
  | nil => exact led
  | cons name names inductionHypothesis =>
    obtain ⟨next, stepped, _, onward⟩ := follow_cons_iff.mp led
    have stands := (of_step stepped).1
    have inside : files.entry? here = some .directory := (covers here old).2.mp stands
    have before : files.step here name = .ok next := by
      rw [FileSystem.step, if_neg (not_not.mpr stands)] at stepped
      rw [FileSystem.step, if_neg (not_not.mpr inside)]
      exact stepped
    cases stands : files.entry? next with
    | none =>
      have nothing := closed.vacant_onward (grounded.onward before stands) stands onward
      rw [nothing] at present
      cases present
    | some entry =>
      have there : (files.entry? next).isSome = true := by rw [stands]; rfl
      exact follow_cons_iff.mpr
        ⟨next, before, there, inductionHypothesis (grounded.tail before) there onward⟩

/-- A path that is found where something old stands was found there before, when no step up of it
starts from a new place. -/
theorem Covers.find_back (covers : Covers files after) (closed : Closed files)
    (grounded : Grounded files [] path.pieces) (found : after.find path = .ok place)
    (present : (files.entry? place).isSome = true) : files.find path = .ok place := by
  obtain ⟨sound, led⟩ := find_iff.mp found
  exact find_iff.mpr ⟨sound, covers.follow_back closed grounded rfl led present⟩

/-- A path to a file that was there named the file before, when no step up of it starts from a new
place. -/
theorem Covers.hasFile_back (covers : Covers files after) (closed : Closed files)
    (grounded : Grounded files [] path.pieces)
    (same : ∀ place bytes, after.find path = .ok place →
      after.entry? place = some (.file bytes) → files.entry? place = some (.file bytes))
    (present : after.hasFile path = true) : files.hasFile path = true := by
  obtain ⟨place, bytes, found, stands⟩ := hasFile_iff.mp present
  have stood := same place bytes found stands
  exact hasFile_iff.mpr
    ⟨place, bytes, covers.find_back closed grounded found (by rw [stood]; rfl), stood⟩

end Ancestry.FileSystem
