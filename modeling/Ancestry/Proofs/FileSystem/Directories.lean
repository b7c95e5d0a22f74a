import Ancestry.FileSystem.Basic
import Ancestry.Proofs.FileSystem.Paths
import Ancestry.Proofs.Text.Utf8

/-!
# A directory and what stands in it

A directory that its path leads to stays there while entries are added. A name in it leads one
location further, and so does a name in a group of names; what stands there is found under the
joined path, a group is made once, and a file has its place in it.
-/

namespace Ancestry.FileSystem

variable {files made : FileSystem} {here place : Location} {entry : FileEntry}
  {names more : List String}

/-- Names are followed one after the other. -/
theorem follow_append (here : Location) (names more : List String) :
    files.follow here (names ++ more) =
      match files.follow here names with
      | .ok there => files.follow there more
      | .error fault => .error fault := by
  induction names generalizing here with
  | nil => rfl
  | cons name names inductionHypothesis =>
    rw [List.cons_append, follow, follow]
    cases files.step here name with
    | error fault => rfl
    | ok next =>
      simp only
      split
      · exact inductionHypothesis next
      · rfl

/-- A name and more lead where the others lead from where the first one leads. -/
theorem follow_cons_iff {name : String} {there : Location} :
    files.follow here (name :: names) = .ok there ↔ ∃ next, files.step here name = .ok next ∧
      (files.entry? next).isSome = true ∧ files.follow next names = .ok there := by
  rw [follow]
  cases files.step here name with
  | error fault => simp
  | ok next => by_cases present : (files.entry? next).isSome = true <;> simp [present]

/-- Names and more lead where the others lead from where the first ones lead. -/
theorem follow_append_iff {there : Location} :
    files.follow here (names ++ more) = .ok there ↔
      ∃ middle, files.follow here names = .ok middle ∧ files.follow middle more = .ok there := by
  rw [follow_append]
  cases files.follow here names <;> simp

/-- A path is found where its names lead, when its text is in order. -/
theorem find_iff {path : Path} : files.find path = .ok place ↔
    textFault? path = none ∧ files.follow [] path.pieces = .ok place := by
  rw [find]
  cases textFault? path <;> simp

/-- The place for a name is where it leads from where the names before it lead. -/
theorem placeFor_iff {last : String} : files.placeFor names last = .ok place ↔
    ∃ here, files.follow [] names = .ok here ∧ files.step here last = .ok place := by
  rw [placeFor]
  cases files.follow [] names <;> simp

/-- A path that does not end in a slash has its file where the last name leads from the directory in
front of it, unless the name steps up or stays there. -/
theorem filePlace_ended {path : Path} {last : String} (sound : textFault? path = none)
    (whole : path.pieces = names ++ [last]) (filled : last ≠ "") :
    files.filePlace path =
      match files.placeFor names last with
      | .error fault => .error fault
      | .ok there =>
        if last = "." ∨ last = ".." then .error .busy
        else if files.entry? there = some .directory then .error .isDirectory else .ok there := by
  have reversed : path.pieces.reverse.dropWhile (· = "") = last :: names.reverse := by
    rw [whole, List.reverse_append, List.reverse_singleton, List.singleton_append,
      List.dropWhile_cons_of_neg (by simp [filled])]
  have unslashed : path.pieces.getLast? ≠ some "" := by
    rw [whole, List.getLast?_concat]
    simp [filled]
  rw [filePlace, sound]
  simp only
  rw [reversed]
  simp only [List.reverse_reverse]
  cases files.placeFor names last with
  | error fault => rfl
  | ok there => simp only [unslashed, if_false]

/-- No file may stand behind a slash, whatever stands in front of it. -/
theorem filePlace_slashed {path : Path} (whole : path.pieces = names ++ [""]) :
    files.filePlace path ≠ .ok place := by
  have slashed : path.pieces.getLast? = some "" := by rw [whole, List.getLast?_concat]
  rw [filePlace, slashed]
  simp only [if_true]
  split
  · exact nofun
  · split
    · exact nofun
    · split
      · exact nofun
      · split <;> exact nofun

/-- A file may stand where the last name of its path leads, which names a file in a directory. -/
theorem filePlace_iff {path : Path} : files.filePlace path = .ok place ↔
    textFault? path = none ∧ ∃ before last, path.pieces = before ++ [last] ∧
      Path.isIdle last = false ∧ last ≠ ".." ∧ files.placeFor before last = .ok place ∧
      files.entry? place ≠ some .directory := by
  constructor
  · intro placed
    cases sound : textFault? path with
    | some fault => simp [filePlace, sound] at placed
    | none =>
      rcases List.eq_nil_or_concat path.pieces with none | ⟨before, last, whole⟩
      · simp [filePlace, sound, none] at placed
      rw [List.concat_eq_append] at whole
      have filled : last ≠ "" := by
        rintro rfl
        exact filePlace_slashed whole placed
      rw [filePlace_ended sound whole filled] at placed
      split at placed
      · cases placed
      split at placed
      · cases placed
      split at placed
      · cases placed
      rename_i led named free
      rw [not_or] at named
      obtain rfl := Except.ok.inj placed
      exact ⟨rfl, before, last, whole, by simp [Path.isIdle, filled, named.1], named.2, led, free⟩
  · rintro ⟨sound, before, last, whole, named, notAbove, placed, free⟩
    have filled : last ≠ "" := by
      rintro rfl
      cases named
    have notHere : last ≠ "." := by
      rintro rfl
      cases named
    rw [filePlace_ended sound whole filled, placed]
    simp only
    rw [if_neg (not_or.mpr ⟨notHere, notAbove⟩), if_neg free]

/-- No file may stand where a path steps up, whatever slashes end it. -/
example : (FileSystem.insert {} ["a"] .directory).filePlace ⟨"/a/..//"⟩ = .error .busy := by
  decide +kernel

/-- A name leads one location further. -/
theorem step_name {name : String} (isName : Path.IsName name) (short : Utf8.size name ≤ nameBound)
    (stands : files.entry? here = some .directory) : files.step here name = .ok (name :: here) := by
  rw [step, if_neg (by simp [stands]), if_neg (by simp [isName.not_idle]),
    if_neg isName.notAbove, if_neg (by omega)]

/-- Below the root an entry is what the map holds. -/
theorem entry?_cons (files : FileSystem) (name : String) (parents : Location) :
    files.entry? (name :: parents) = files.entries[name :: parents]? := rfl

/-- What stands at a location after an entry was put somewhere. -/
theorem entry?_insert (files : FileSystem) (name : String) (parents other : Location)
    (entry : FileEntry) :
    FileSystem.entry? (files.insert (name :: parents) entry) other =
      if other = name :: parents then some entry else files.entry? other := by
  cases other with
  | nil => rfl
  | cons first rest =>
    simp only [entry?_cons, insert, Std.TreeMap.getElem?_insert, Std.LawfulEqCmp.compare_eq_iff_eq]
    split
    · rename_i same
      rw [if_pos same.symm]
    · rename_i other
      rw [if_neg fun same => other same.symm]

/-- What stands at a location after an entry was taken away somewhere. -/
theorem entry?_erase (files : FileSystem) (name : String) (parents other : Location) :
    FileSystem.entry? (files.erase (name :: parents)) other =
      if other = name :: parents then none else files.entry? other := by
  cases other with
  | nil => rfl
  | cons first rest =>
    simp only [entry?_cons, erase, Std.TreeMap.getElem?_erase, Std.LawfulEqCmp.compare_eq_iff_eq]
    split
    · rename_i same
      rw [if_pos same.symm]
    · rename_i other
      rw [if_neg fun same => other same.symm]

/-- A file system that has all the entries of another. -/
def Extends (files made : FileSystem) : Prop :=
  ∀ place entry, files.entry? place = some entry → made.entry? place = some entry

/-- An entry put where nothing stands adds to the others. -/
theorem extends_insert {name : String} (vacant : files.entry? (name :: here) = none)
    (entry : FileEntry) : Extends files (files.insert (name :: here) entry) := by
  intro place other stands
  rw [entry?_insert, if_neg, stands]
  rintro rfl
  rw [vacant] at stands
  cases stands

/-- Names that lead somewhere lead there when entries are added. -/
theorem Extends.follow (extended : Extends files made) {there : Location}
    (led : files.follow here names = .ok there) : made.follow here names = .ok there := by
  induction names generalizing here with
  | nil => exact led
  | cons name names inductionHypothesis =>
    obtain ⟨next, stepped, present, further⟩ := follow_cons_iff.mp led
    have stands : files.entry? here = some .directory := by
      by_contra other
      rw [step, if_pos other] at stepped
      cases stepped
    have same : made.step here name = files.step here name := by
      simp only [step, stands, extended here _ stands]
    obtain ⟨entry, found⟩ := Option.isSome_iff_exists.mp present
    exact follow_cons_iff.mpr ⟨next, same.trans stepped,
      Option.isSome_of_eq_some (extended next entry found), inductionHypothesis further⟩

/-- A directory stands at a location to which the names of a path lead. -/
structure Standing (files : FileSystem) (stem : String) (root : Location) : Prop where
  led : files.follow [] (Path.pieces ⟨stem⟩) = .ok root
  stands : files.entry? root = some .directory

/-- A directory stands also where more was added. -/
theorem Standing.extend {stem : String} (standing : Standing files stem here)
    (extended : Extends files made) : Standing made stem here :=
  ⟨extended.follow standing.led, extended here _ standing.stands⟩

/-- A name that may follow a directory's path: the text of the joined path is in order. -/
structure Fits (stem next : String) : Prop where
  clean : '\x00' ∉ stem.toList ∧ '\x00' ∉ next.toList
  short : Utf8.size stem + 1 + Utf8.size next ≤ pathBound

variable {stem group name : String} {root : Location}

/-- There is nothing wrong with the text of a path that fits. -/
theorem Fits.textFault? {next : String} (fits : Fits stem next) :
    textFault? (Path.below stem next) = none := by
  have short := fits.short
  rw [← Path.size_below] at short
  rw [FileSystem.textFault?, if_neg (by simp [Path.below, fits.clean]),
    if_neg (by simp [Path.below]), if_neg (by omega)]

/-- What is below a directory is looked for from the directory on. -/
theorem Standing.find (standing : Standing files stem root) {next : String}
    (fits : Fits stem next) :
    files.find (Path.below stem next) = files.follow root (Path.pieces ⟨next⟩) := by
  rw [FileSystem.find, fits.textFault?]
  simp only
  rw [Path.pieces_below, follow_append, standing.led]

/-- One name leads to what stands under it. -/
theorem follow_name (isName : Path.IsName name) (short : Utf8.size name ≤ nameBound)
    (stands : files.entry? here = some .directory) (more : List String) :
    files.follow here (name :: more) =
      if (files.entry? (name :: here)).isSome then files.follow (name :: here) more
      else .error .absent := by
  rw [follow, step_name isName short stands]

/-- A name that may stand below a directory. -/
structure Admits (stem group : String) : Prop where
  isGroup : Path.IsName group
  groupShort : Utf8.size group ≤ nameBound
  groupFits : Fits stem group

/-- Names of a group and of a file in it that may stand below a directory. -/
structure AdmitsFile (stem group name : String) : Prop extends Admits stem group where
  isName : Path.IsName name
  nameShort : Utf8.size name ≤ nameBound
  fits : Fits stem (group ++ "/" ++ name)

/-- Where there is room for a file in a group there is room for the group. -/
theorem Fits.front (fits : Fits stem (group ++ "/" ++ name)) : Fits stem group := by
  obtain ⟨⟨stemClean, clean⟩, short⟩ := fits
  simp only [String.toList_append, List.mem_append, not_or] at clean
  have size : Utf8.size (group ++ "/" ++ name) = Utf8.size group + 1 + Utf8.size name :=
    Path.size_below group name
  exact ⟨⟨stemClean, clean.1.1⟩, by omega⟩

/-- A group of a directory is found where it stands. -/
theorem Standing.find_group (standing : Standing files stem root)
    (admits : Admits stem group) :
    files.find (Path.below stem group) =
      if (files.entry? (group :: root)).isSome then .ok (group :: root) else .error .absent := by
  rw [standing.find admits.groupFits, admits.isGroup.pieces,
    follow_name admits.isGroup admits.groupShort standing.stands]
  rfl

/-- A file of a group that is not there is absent. -/
theorem Standing.find_ungrouped (standing : Standing files stem root)
    (admits : AdmitsFile stem group name) (vacant : files.entry? (group :: root) = none) :
    files.find (Path.below stem (group ++ "/" ++ name)) = .error .absent := by
  rw [standing.find admits.fits, admits.isGroup.pieces_both admits.isName,
    follow_name admits.isGroup admits.groupShort standing.stands, vacant]
  rfl

/-- A file of a group is found where it stands. -/
theorem Standing.find_file (standing : Standing files stem root)
    (admits : AdmitsFile stem group name)
    (grouped : files.entry? (group :: root) = some .directory) :
    files.find (Path.below stem (group ++ "/" ++ name)) =
      if (files.entry? (name :: group :: root)).isSome then .ok (name :: group :: root)
      else .error .absent := by
  rw [standing.find admits.fits, admits.isGroup.pieces_both admits.isName,
    follow_name admits.isGroup admits.groupShort standing.stands, grouped,
    if_pos (by rfl), follow_name admits.isName admits.nameShort grouped]
  rfl

/-- The last name of a path and those in front of it, for a new entry. -/
theorem Standing.placeFor_group (standing : Standing files stem root)
    (admits : Admits stem group) :
    files.placeFor (Path.pieces ⟨stem⟩) group = .ok (group :: root) := by
  rw [placeFor, standing.led]
  exact step_name admits.isGroup admits.groupShort standing.stands

/-- A directory below another is made at the end of the other's names. -/
theorem createDirectory_below (isGroup : Path.IsName group) (fits : Fits stem group) :
    files.createDirectory (Path.below stem group) =
      (files.placeFor (Path.pieces ⟨stem⟩) group).bind fun place =>
        if (files.entry? place).isSome then .error .occupied
        else .ok (files.insert place .directory) := by
  rw [createDirectory, fits.textFault?]
  simp only
  rw [Path.pieces_below, isGroup.pieces, List.reverse_append, List.reverse_singleton,
    List.singleton_append, List.dropWhile_cons_of_neg (by simp [isGroup.filled])]
  simp only
  rw [List.reverse_reverse]
  cases files.placeFor (Path.pieces ⟨stem⟩) group <;> rfl

/-- A group is made where it is missing. -/
theorem Standing.createDirectory_group (standing : Standing files stem root)
    (admits : Admits stem group) :
    files.createDirectory (Path.below stem group) =
      if (files.entry? (group :: root)).isSome then .error .occupied
      else .ok (files.insert (group :: root) .directory) := by
  rw [createDirectory_below admits.isGroup admits.groupFits, standing.placeFor_group admits]
  rfl

/-- Making a group that is there changes nothing. -/
theorem Standing.createDirectories_present (standing : Standing files stem root)
    (admits : Admits stem group) (grouped : files.entry? (group :: root) = some .directory) :
    files.createDirectories (Path.below stem group) = (.ok (), files) := by
  obtain ⟨parents, lineage⟩ := Path.lineage_below stem admits.isGroup
  have found : files.hasDirectory (Path.below stem group) = true := by
    rw [hasDirectory, lookup?, standing.find_group admits, grouped, if_pos (by rfl)]
    simp only [grouped]
  rw [createDirectories, lineage, createLineage, standing.createDirectory_group admits, grouped,
    if_pos (by rfl)]
  exact if_pos ⟨rfl, found⟩

/-- A group that is missing is made. -/
theorem Standing.createDirectories_vacant (standing : Standing files stem root)
    (admits : Admits stem group) (vacant : files.entry? (group :: root) = none) :
    files.createDirectories (Path.below stem group) =
      (.ok (), files.insert (group :: root) .directory) := by
  obtain ⟨parents, lineage⟩ := Path.lineage_below stem admits.isGroup
  rw [createDirectories, lineage, createLineage, standing.createDirectory_group admits, vacant,
    if_neg (by simp)]

/-- A file may stand in a group that is there. -/
theorem Standing.filePlace (standing : Standing files stem root)
    (admits : AdmitsFile stem group name) (grouped : files.entry? (group :: root) = some .directory)
    (free : files.entry? (name :: group :: root) ≠ some .directory) :
    files.filePlace (Path.below stem (group ++ "/" ++ name)) = .ok (name :: group :: root) := by
  have placed : files.placeFor (Path.pieces ⟨stem⟩ ++ [group]) name =
      .ok (name :: group :: root) := by
    rw [placeFor, follow_append, standing.led]
    simp only
    rw [follow_name admits.isGroup admits.groupShort standing.stands, grouped, if_pos (by rfl),
      follow]
    exact step_name admits.isName admits.nameShort grouped
  have pieces : (Path.below stem (group ++ "/" ++ name)).pieces =
      Path.pieces ⟨stem⟩ ++ [group] ++ [name] := by
    rw [Path.pieces_below, admits.isGroup.pieces_both admits.isName]
    simp
  exact filePlace_iff.mpr ⟨admits.fits.textFault?, _, name, pieces,
    by simp [Path.isIdle, admits.isName.filled, admits.isName.notHere], admits.isName.notAbove,
    placed, free⟩

/-- What is below a directory that names do not lead to is not found. -/
theorem find_below_missing {fault : FileFault} {next : String}
    (missing : files.follow [] (Path.pieces ⟨stem⟩) = .error fault) (fits : Fits stem next) :
    files.find (Path.below stem next) = .error fault := by
  rw [FileSystem.find, fits.textFault?]
  simp only
  rw [Path.pieces_below, follow_append, missing]

/-- A directory that is absent is made with its first group. -/
theorem createDirectories_missing {home : Path}
    (missing : files.follow [] (Path.pieces ⟨stem⟩) = .error .absent)
    (parent : (Path.below stem group).parent? = some home)
    (created : files.createDirectories home = (.ok (), made)) (standing : Standing made stem root)
    (admits : Admits stem group) (vacant : made.entry? (group :: root) = none) :
    files.createDirectories (Path.below stem group) =
      (.ok (), made.insert (group :: root) .directory) := by
  have refused : files.createDirectory (Path.below stem group) = .error .absent := by
    rw [createDirectory_below admits.isGroup admits.groupFits, placeFor, missing]
    rfl
  rw [createDirectories] at created
  rw [createDirectories, Path.lineage_of_parent parent, createLineage, refused]
  simp only
  rw [created]
  simp only
  rw [standing.createDirectory_group admits, vacant, if_neg (by simp)]

/-- A slash at the end of a path leads nowhere else, and only asks for a directory. -/
theorem follow_slash (files : FileSystem) (stem : String) :
    files.follow [] (Path.below stem "").pieces =
      match files.follow [] (Path.pieces ⟨stem⟩) with
      | .error fault => .error fault
      | .ok there =>
        if files.entry? there = some .directory then .ok there else .error .notDirectory := by
  have last : Path.pieces ⟨""⟩ = [""] := by decide
  rw [Path.pieces_below, follow_append, last]
  cases files.follow [] (Path.pieces ⟨stem⟩) with
  | error fault => rfl
  | ok there =>
    simp only
    rw [follow, step]
    by_cases stands : files.entry? there = some .directory
    · simp [stands, Path.isIdle, follow]
    · simp [stands]

/-- The names of a directory that is found lead to it, with a slash behind them or without. -/
theorem led_of_found {directory : Path} (found : files.find directory = .ok root)
    (form : directory = ⟨stem⟩ ∨ directory = Path.below stem "") :
    files.follow [] (Path.pieces ⟨stem⟩) = .ok root := by
  obtain ⟨_, led⟩ := find_iff.mp found
  rcases form with rfl | rfl
  · exact led
  · rw [follow_slash] at led
    split at led
    · cases led
    · rename_i there reached
      split at led
      · rwa [reached]
      · cases led

end Ancestry.FileSystem
