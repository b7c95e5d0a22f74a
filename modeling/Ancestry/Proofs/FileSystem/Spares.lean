import Ancestry.Proofs.FileSystem.Changes
import Mathlib.Data.Nat.Digits.Defs

/-!
# Files placed through spare ones

Where the names of a path lead depends on directories only. So a file that is placed through a
spare one ends where its path led before the spare file was written, and the spare file is gone
then. A spare file that cannot be moved stays, and nothing else changes.
-/

namespace Ancestry.FileSystem

variable {files made last : FileSystem} {here there place target : Location} {name : String}
  {names : List String} {path spare : Path} {bytes : Bytes}

/-- The same directories stand in both. -/
def SameDirectories (files made : FileSystem) : Prop :=
  ∀ place, files.entry? place = some .directory ↔ made.entry? place = some .directory

/-- Directories are the same in either direction. -/
theorem SameDirectories.symm (same : SameDirectories files made) : SameDirectories made files :=
  fun place => (same place).symm

/-- A file that is put where no directory stands leaves the directories. -/
theorem sameDirectories_insert (free : files.entry? (name :: here) ≠ some .directory)
    (bytes : Bytes) : SameDirectories files (files.insert (name :: here) (.file bytes)) := by
  intro place
  rw [entry?_insert]
  split
  · rename_i same
    subst same
    exact iff_of_false free (fun other => nomatch other)
  · rfl

/-- A name leads alike among the same directories, whether it leads anywhere or not. -/
theorem SameDirectories.step (same : SameDirectories files made) (here : Location)
    (name : String) : files.step here name = made.step here name := by
  rw [FileSystem.step, FileSystem.step]
  simp only [ne_eq, same here]

/-- Names that lead to a directory lead there among the same directories: whatever they pass is a
directory. -/
theorem SameDirectories.follow (same : SameDirectories files made)
    (led : files.follow here names = .ok there) (stands : files.entry? there = some .directory) :
    made.follow here names = .ok there := by
  induction names generalizing here with
  | nil => exact led
  | cons name names inductionHypothesis =>
    obtain ⟨next, stepped, _, onward⟩ := follow_cons_iff.mp led
    have passed : files.entry? next = some .directory := by
      cases names with
      | nil => rwa [Except.ok.inj onward]
      | cons second names =>
        obtain ⟨_, further, _, _⟩ := follow_cons_iff.mp onward
        exact (of_step further).1
    refine follow_cons_iff.mpr ⟨next, same.step here name ▸ stepped, ?_, inductionHypothesis onward⟩
    rw [(same next).mp passed]
    rfl

/-- A path has the same place for a file among the same directories. -/
theorem SameDirectories.filePlace (same : SameDirectories files made)
    (placed : files.filePlace path = .ok place) : made.filePlace path = .ok place := by
  obtain ⟨sound, before, last, whole, named, notAbove, placed, free⟩ := filePlace_iff.mp placed
  obtain ⟨here, led, stepped⟩ := placeFor_iff.mp placed
  have reached := same.follow led (of_step stepped).1
  exact filePlace_iff.mpr ⟨sound, before, last, whole, named, notAbove,
    placeFor_iff.mpr ⟨here, reached, same.step here last ▸ stepped⟩, fun stood =>
      free ((same place).mpr stood)⟩

/-- Nothing stands in the place of a path that names nothing. -/
theorem vacant_of_has (placed : files.filePlace path = .ok place)
    (absent : files.has path = false) : files.entry? place = none := by
  by_contra present
  have found := find_of_filePlace placed (Option.isSome_iff_ne_none.mpr present)
  rw [has, lookup?, found] at absent
  exact present (by simpa using absent)

/-- What comes of placing a file through a spare one. -/
inductive Placed (files : FileSystem) (spare path : Path) (bytes : Bytes) :
    Except (Stage × FileFault) Unit → FileSystem → Prop where
  | unopened (fault : FileFault) (refused : files.filePlace spare = .error fault) :
      Placed files spare path bytes (.error (.opening, fault)) files
  | unmoved (fault : FileFault) (place : Location) (opened : files.filePlace spare = .ok place)
      (refused : ∀ target, files.filePlace path ≠ .ok target) :
      Placed files spare path bytes (.error (.moving, fault)) (files.insert place (.file bytes))
  | moved (place target : Location) (after : FileSystem)
      (opened : files.filePlace spare = .ok place) (placed : files.filePlace path = .ok target)
      (entries : ∀ other, after.entry? other =
        if other = target then some (.file bytes) else if other = place then none
        else files.entry? other) :
      Placed files spare path bytes (.ok ()) after

/-- Placing a file ends in one of three ways. The spare file is found where it was put, since its
place is the same among the same directories; so is the place of the file that it is moved to. -/
theorem placed_placeFile (files : FileSystem) (spare path : Path) (bytes : Bytes) :
    Placed files spare path bytes (files.placeFile spare path bytes).1
      (files.placeFile spare path bytes).2 := by
  rw [placeFile, replaceFile]
  cases opened : files.filePlace spare with
  | error fault => exact .unopened fault opened
  | ok place =>
    obtain ⟨name, here, rfl, _, free⟩ := of_filePlace opened
    have same := sameDirectories_insert free bytes
    have stands : FileSystem.entry? (files.insert (name :: here) (.file bytes)) (name :: here) =
        some (.file bytes) := by
      rw [entry?_insert, if_pos rfl]
    have found := find_of_filePlace (same.filePlace opened) (by rw [stands]; rfl)
    simp only [Except.map, moveFile, found, stands]
    cases placed : (files.insert (name :: here) (.file bytes)).filePlace path with
    | error fault =>
      refine .unmoved fault _ opened fun target reached => ?_
      rw [same.filePlace reached] at placed
      cases placed
    | ok target =>
      obtain ⟨entry, group, rfl, _, _⟩ := of_filePlace placed
      refine .moved _ _ _ opened (same.symm.filePlace placed) fun other => ?_
      simp only [entry?_insert, entry?_erase]
      split
      · rfl
      · split <;> rfl

/-- A file is placed where there is a place for it and one for its spare file. -/
theorem placeFile_ok (opened : files.filePlace spare = .ok place)
    (placed : files.filePlace path = .ok target) (bytes : Bytes) :
    ∃ written, files.placeFile spare path bytes = (.ok (), written) := by
  have outcome := placed_placeFile files spare path bytes
  generalize files.placeFile spare path bytes = result at outcome ⊢
  obtain ⟨given, after⟩ := result
  cases outcome with
  | unopened fault refused =>
    rw [opened] at refused
    cases refused
  | unmoved fault place _ refused => exact absurd placed (refused target)
  | moved => exact ⟨after, rfl⟩

/-- Placing a file leaves the directories: no file is put where one of them stands. -/
theorem Placed.sameDirectories {given : Except (Stage × FileFault) Unit} {after : FileSystem}
    (placed : Placed files spare path bytes given after) : SameDirectories files after := by
  cases placed with
  | unopened => exact fun _ => Iff.rfl
  | unmoved fault place opened =>
    obtain ⟨name, here, rfl, _, free⟩ := of_filePlace opened
    exact sameDirectories_insert free bytes
  | moved place target _ opened placed entries =>
    obtain ⟨_, _, rfl, _, freeSpare⟩ := of_filePlace opened
    obtain ⟨_, _, rfl, _, free⟩ := of_filePlace placed
    intro other
    rw [entries]
    split
    · rename_i same
      subst same
      exact iff_of_false free (fun other => nomatch other)
    · split
      · rename_i same
        subst same
        exact iff_of_false freeSpare (fun other => nomatch other)
      · rfl

/-- Placing a file leaves whatever stands somewhere in a directory. -/
theorem Placed.closed {given : Except (Stage × FileFault) Unit} {after : FileSystem}
    (placed : Placed files spare path bytes given after) (closed : Closed files) :
    Closed after := by
  have same := placed.sameDirectories
  cases placed with
  | unopened => exact closed
  | unmoved fault place opened =>
    obtain ⟨name, here, rfl, stands, free⟩ := of_filePlace opened
    exact closed.insert stands free bytes
  | moved place target _ opened placed entries =>
    obtain ⟨name, here, rfl, stands, _⟩ := of_filePlace placed
    intro other parents present
    refine (same parents).mp ?_
    rw [entries] at present
    split at present
    · rename_i whole
      rw [(List.cons.inj whole).2]
      exact stands
    · split at present
      · cases present
      · exact closed other parents present

/-- The file that was moved is found in its place. -/
theorem Placed.found {after : FileSystem}
    (placed : Placed files spare path bytes (.ok ()) after) :
    ∃ target, files.filePlace path = .ok target ∧ after.find path = .ok target ∧
      after.entry? target = some (.file bytes) := by
  have same := placed.sameDirectories
  cases placed with
  | moved place target _ opened placed entries =>
    have stands : after.entry? target = some (.file bytes) := by rw [entries, if_pos rfl]
    exact ⟨target, placed, find_of_filePlace (same.filePlace placed) (by rw [stands]; rfl), stands⟩

/-- Nothing is changed but in the place of the spare file and in that of the file. -/
theorem Placed.entries {given : Except (Stage × FileFault) Unit} {after : FileSystem}
    (placed : Placed files spare path bytes given after) {other : Location}
    (apart : given = .ok () → files.filePlace path ≠ .ok other)
    (elsewhere : files.filePlace spare ≠ .ok other) :
    after.entry? other = files.entry? other := by
  cases placed with
  | unopened => rfl
  | unmoved fault place opened =>
    obtain ⟨name, here, rfl, _, _⟩ := of_filePlace opened
    rw [entry?_insert, if_neg]
    rintro rfl
    exact elsewhere opened
  | moved place target _ opened placed entries =>
    rw [entries, if_neg, if_neg]
    · rintro rfl
      exact elsewhere opened
    · rintro rfl
      exact apart rfl placed

/-- Every file was there or holds what was to be written. -/
theorem Placed.stood {given : Except (Stage × FileFault) Unit} {after : FileSystem}
    (placed : Placed files spare path bytes given after) {other : Location} {held : Bytes}
    (stands : after.entry? other = some (.file held)) :
    held = bytes ∨ files.entry? other = some (.file held) := by
  cases placed with
  | unopened => exact .inr stands
  | unmoved fault place opened =>
    obtain ⟨name, here, rfl, _, _⟩ := of_filePlace opened
    rw [entry?_insert] at stands
    split at stands
    · exact .inl (FileEntry.file.inj (Option.some.inj stands)).symm
    · exact .inr stands
  | moved place target _ opened placed entries =>
    rw [entries] at stands
    split at stands
    · exact .inl (FileEntry.file.inj (Option.some.inj stands)).symm
    · split at stands
      · cases stands
      · exact .inr stands

section naming

variable {front : String} {draw : UInt32}

/-- The name of a spare file has digits behind its text. -/
theorem of_mem_spareName {c : Char} (member : c ∈ (spareName front draw).toList) :
    c ∈ front.toList ∨ c.isDigit = true := by
  rw [spareName, Text.digits, String.toList_append, String.toList_ofList, List.mem_append] at member
  exact member.imp_right fun inside => Nat.isDigit_of_mem_toDigits (by decide) (by decide) inside

/-- A text that is more than dots and has no slash begins the name of a file. -/
theorem isName_spareName (whole : '/' ∉ front.toList) (named : ∃ c ∈ front.toList, c ≠ '.') :
    Path.IsName (spareName front draw) := by
  obtain ⟨c, member, other⟩ := named
  have inside : c ∈ (spareName front draw).toList := by
    rw [spareName, String.toList_append]
    exact List.mem_append_left _ member
  refine ⟨?_, fun slash => ?_, ?_, ?_⟩
  · intro nothing
    rw [nothing] at inside
    cases inside
  · rcases of_mem_spareName slash with before | digit
    · exact whole before
    · exact absurd digit (by decide)
  · intro here
    rw [here] at inside
    exact other (by simpa using inside)
  · intro above
    rw [above] at inside
    exact other (by simpa using inside)

/-- The number in the name of a spare file has ten digits at most. -/
theorem size_spareName (front : String) (draw : UInt32) :
    Utf8.size (spareName front draw) ≤ Utf8.size front + 10 := by
  have plain : ∀ c ∈ (Text.digits 10 draw.toNat).toList, c.toNat < 128 := by
    intro c member
    rw [Text.digits, String.toList_ofList] at member
    have digit := Nat.isDigit_of_mem_toDigits (by decide) (by decide) member
    rw [Char.isDigit_iff_toNat] at digit
    have nine : '9'.toNat = 57 := rfl
    omega
  have few : (Nat.toDigits 10 draw.toNat).length ≤ 10 :=
    Nat.toDigits_length 10 draw.toNat 10 (by decide) (Nat.lt_trans draw.toNat_lt (by decide))
  rw [spareName, Utf8.size_append, Utf8.size_plain plain, Text.digits, String.toList_ofList]
  omega

end naming

end Ancestry.FileSystem
