import Ancestry.Proofs.FileSystem.Directories

/-!
# What making directories and files changes

Making directories, whether it succeeds or not, only adds directories where nothing stood. Putting
a file in its place changes that place only, where no directory may stand. Both leave what was
there, up to the contents of files, so that names which led somewhere lead there afterwards.
-/

namespace Ancestry.FileSystem

variable {files made written : FileSystem} {here there : Location} {name : String}
  {names : List String} {path : Path} {bytes : Bytes}

/-- Whatever stands somewhere stands in a directory. -/
def Closed (files : FileSystem) : Prop :=
  ∀ name parents, (files.entry? (name :: parents)).isSome = true →
    files.entry? parents = some .directory

/-- At most directories were added. -/
structure Furnished (files made : FileSystem) : Prop where
  entries : ∀ place, made.entry? place = files.entry? place ∨
    files.entry? place = none ∧ made.entry? place = some .directory
  closed : Closed files → Closed made

/-- Nothing was added where nothing was done. -/
theorem Furnished.refl (files : FileSystem) : Furnished files files := ⟨fun _ => .inl rfl, id⟩

/-- What adds directories, and then more of them, adds directories. -/
theorem Furnished.trans {last : FileSystem} (first : Furnished files made)
    (second : Furnished made last) : Furnished files last := by
  refine ⟨fun place => ?_, second.closed ∘ first.closed⟩
  rcases first.entries place with same | ⟨vacant, added⟩
  · rw [← same]
    exact second.entries place
  · rcases second.entries place with same | ⟨other, _⟩
    · exact .inr ⟨vacant, same.trans added⟩
    · rw [other] at added
      cases added

/-- What was there is there, up to the contents of files. -/
def Covers (files made : FileSystem) : Prop :=
  ∀ place, (files.entry? place).isSome = true → (made.entry? place).isSome = true ∧
    (made.entry? place = some .directory ↔ files.entry? place = some .directory)

/-- Directories replace nothing that stood. -/
theorem Furnished.covers (furnished : Furnished files made) : Covers files made := by
  intro place present
  rcases furnished.entries place with same | ⟨vacant, _⟩
  · exact ⟨same ▸ present, by rw [same]⟩
  · rw [vacant] at present
    cases present

/-- The files are the same. -/
theorem Furnished.file_iff (furnished : Furnished files made) {place : Location} :
    made.entry? place = some (.file bytes) ↔ files.entry? place = some (.file bytes) := by
  rcases furnished.entries place with same | ⟨vacant, added⟩
  · rw [same]
  · rw [vacant, added]
    exact iff_of_false (fun other => nomatch other) (fun other => nomatch other)

/-- A path names a file when it is found where a file stands. -/
theorem hasFile_iff : files.hasFile path = true ↔
    ∃ place bytes, files.find path = .ok place ∧ files.entry? place = some (.file bytes) := by
  rw [hasFile, lookup?]
  cases files.find path with
  | error fault => simp
  | ok place =>
    cases stands : files.entry? place with
    | none => simp [stands]
    | some entry => cases entry <;> simp [stands]

/-- A file may be put where no directory stands. -/
theorem covers_insert (free : files.entry? (name :: here) ≠ some .directory) (bytes : Bytes) :
    Covers files (files.insert (name :: here) (.file bytes)) := by
  intro place present
  rw [entry?_insert]
  split
  · rename_i same
    subst same
    exact ⟨rfl, iff_of_false (fun other => nomatch other) free⟩
  · exact ⟨present, Iff.rfl⟩

/-- A name leads on from a directory: nowhere else, up, or one location further. -/
theorem of_step (stepped : files.step here name = .ok there) :
    files.entry? here = some .directory ∧
      (Path.isIdle name = true ∧ there = here ∨ name = ".." ∧ there = here.tail ∨
        Path.isIdle name = false ∧ name ≠ ".." ∧ Utf8.size name ≤ nameBound ∧
          there = name :: here) := by
  rw [step] at stepped
  split at stepped
  · cases stepped
  · rename_i stands
    refine ⟨not_not.mp stands, ?_⟩
    split at stepped
    · rename_i idle
      exact .inl ⟨idle, (Except.ok.inj stepped).symm⟩
    · rename_i filled
      split at stepped
      · rename_i above
        exact .inr (.inl ⟨above, (Except.ok.inj stepped).symm⟩)
      · rename_i notAbove
        split at stepped
        · cases stepped
        · rename_i short
          exact .inr (.inr ⟨by simpa using filled, notAbove, Nat.not_lt.mp short,
            (Except.ok.inj stepped).symm⟩)

/-- A name leads to the same place as long as what was there is there. -/
theorem Covers.step (covers : Covers files made) (stepped : files.step here name = .ok there) :
    made.step here name = .ok there := by
  obtain ⟨stands, _⟩ := of_step stepped
  have stays := (covers here (by rw [stands]; rfl)).2.mpr stands
  rw [FileSystem.step, if_neg (not_not.mpr stands)] at stepped
  rw [FileSystem.step, if_neg (not_not.mpr stays)]
  exact stepped

/-- Names lead to the same place as long as what was there is there. -/
theorem Covers.follow (covers : Covers files made)
    (led : files.follow here names = .ok there) : made.follow here names = .ok there := by
  induction names generalizing here with
  | nil => exact led
  | cons name names inductionHypothesis =>
    obtain ⟨next, stepped, present, further⟩ := follow_cons_iff.mp led
    exact follow_cons_iff.mpr
      ⟨next, covers.step stepped, (covers next present).1, inductionHypothesis further⟩

/-- A path that names something names the same place as long as what was there is there. -/
theorem Covers.find (covers : Covers files made) (found : files.find path = .ok there) :
    made.find path = .ok there := by
  obtain ⟨sound, led⟩ := find_iff.mp found
  exact find_iff.mpr ⟨sound, covers.follow led⟩

/-- A directory that its path leads to stays there as long as what was there is there. -/
theorem Standing.covered {stem : String} (standing : Standing files stem here)
    (covers : Covers files made) : Standing made stem here := by
  have stands := standing.stands
  exact ⟨covers.follow standing.led, (covers here (by rw [stands]; rfl)).2.mpr stands⟩

/-- What a directory stands in is a directory. -/
theorem Closed.above (closed : Closed files) (stands : files.entry? here = some .directory) :
    files.entry? here.tail = some .directory := by
  cases here with
  | nil => rfl
  | cons inner outer => exact closed inner outer (by rw [stands]; rfl)

/-- A directory is made where nothing stands. -/
theorem of_createDirectory (created : files.createDirectory path = .ok made) :
    ∃ name parents, files.entry? (name :: parents) = none ∧
      (Closed files → files.entry? parents = some .directory) ∧
      made = files.insert (name :: parents) .directory := by
  rw [createDirectory] at created
  split at created
  · cases created
  · split at created
    · cases created
    · split at created
      · cases created
      · rename_i place placed
        split at created
        · cases created
        · rename_i vacant
          have nothing : files.entry? place = none := by simpa using vacant
          obtain rfl := (Except.ok.inj created).symm
          cases place with
          | nil => cases nothing
          | cons name parents =>
            refine ⟨name, parents, nothing, fun closed => ?_, rfl⟩
            obtain ⟨here, _, stepped⟩ := placeFor_iff.mp placed
            obtain ⟨stands, ⟨_, rfl⟩ | ⟨_, up⟩ | ⟨_, _, _, further⟩⟩ := of_step stepped
            · rw [nothing] at stands
              cases stands
            · have above := closed.above stands
              rw [← up, nothing] at above
              cases above
            · rw [(List.cons.inj further).2]
              exact stands

/-- The one directory that is made is all that is added. -/
theorem createDirectory_furnished (created : files.createDirectory path = .ok made) :
    Furnished files made := by
  obtain ⟨name, parents, nothing, inside, rfl⟩ := of_createDirectory created
  constructor
  · intro place
    rw [entry?_insert]
    split
    · rename_i same
      exact .inr ⟨same ▸ nothing, rfl⟩
    · exact .inl rfl
  · intro closed other above present
    have stood : files.entry? above = some .directory := by
      rw [entry?_insert] at present
      split at present
      · rename_i same
        rw [(List.cons.inj same).2]
        exact inside closed
      · exact closed other above present
    rw [entry?_insert]
    split
    · rfl
    · exact stood

/-- Making a directory with its parents only adds directories, also when it fails. -/
theorem createLineage_furnished (files : FileSystem) (paths : List Path) :
    Furnished files (files.createLineage paths).2 := by
  induction paths with
  | nil => exact .refl files
  | cons path parents inductionHypothesis =>
    rw [createLineage]
    split
    · rename_i made created
      exact createDirectory_furnished created
    · split
      · rename_i fault made failed
        rw [failed] at inductionHypothesis
        exact inductionHypothesis
      · rename_i made lined
        rw [lined] at inductionHypothesis
        split
        · rename_i all created
          exact inductionHypothesis.trans (createDirectory_furnished created)
        · split <;> exact inductionHypothesis
    · split <;> exact .refl files

/-- Directories are all that is added, also where making them fails on the way. -/
theorem createDirectories_furnished (files : FileSystem) (path : Path) :
    Furnished files (files.createDirectories path).2 := createLineage_furnished files path.lineage

/-- A file may stand in a directory where no directory stands. -/
theorem of_filePlace (placed : files.filePlace path = .ok there) :
    ∃ name here, there = name :: here ∧ files.entry? here = some .directory ∧
      files.entry? (name :: here) ≠ some .directory := by
  obtain ⟨_, before, last, _, named, notAbove, placed, free⟩ := filePlace_iff.mp placed
  obtain ⟨here, _, stepped⟩ := placeFor_iff.mp placed
  obtain ⟨stands, ⟨idle, _⟩ | ⟨above, _⟩ | ⟨_, _, _, rfl⟩⟩ := of_step stepped
  · rw [named] at idle
    cases idle
  · exact absurd above notAbove
  · exact ⟨last, here, rfl, stands, free⟩

/-- What stands in the place of a file is found under its path. -/
theorem find_of_filePlace (placed : files.filePlace path = .ok there)
    (present : (files.entry? there).isSome = true) : files.find path = .ok there := by
  obtain ⟨sound, before, last, whole, _, _, placed, _⟩ := filePlace_iff.mp placed
  obtain ⟨here, led, stepped⟩ := placeFor_iff.mp placed
  rw [find_iff, whole]
  exact ⟨sound, follow_append_iff.mpr
    ⟨here, led, follow_cons_iff.mpr ⟨there, stepped, present, rfl⟩⟩⟩

/-- Files put into directories leave whatever stands somewhere in a directory. -/
theorem Closed.insert (closed : Closed files) (stands : files.entry? here = some .directory)
    (free : files.entry? (name :: here) ≠ some .directory) (bytes : Bytes) :
    Closed (files.insert (name :: here) (.file bytes)) := by
  intro other above present
  have stood : files.entry? above = some .directory := by
    rw [entry?_insert] at present
    split at present
    · rename_i same
      rw [(List.cons.inj same).2]
      exact stands
    · exact closed other above present
  exact (covers_insert free bytes above (by rw [stood]; rfl)).2.mpr stood

/-- One directory stands in the root. -/
theorem closed_single (name : String) : Closed (FileSystem.insert {} [name] .directory) := by
  intro other parents present
  rw [entry?_insert] at present
  split at present
  · rename_i same
    obtain ⟨_, rfl⟩ := List.cons.inj same
    rfl
  · exact absurd present (by simp [entry?_cons])

end Ancestry.FileSystem
