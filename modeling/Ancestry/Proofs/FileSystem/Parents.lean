import Mathlib.Data.List.TakeWhile
import Ancestry.Proofs.FileSystem.Changes

/-!
# The directory of a file

The parent of a path names the directory in which the last name of the path is looked for, up to
idle names, unless the parent is empty. So what is joined to the parent stands beside what the
path names; where the path names a file nothing has to be made for it to be written again, and
there is a place beside it for every other name that is not too long.
-/

namespace Ancestry.FileSystem

variable {files : FileSystem} {here there place : Location} {names more front behind : List String}
  {name last : String} {path parent : Path} {bytes : Bytes}

/-- An idle name leads from the root to the root. -/
theorem follow_idle (idle : Path.isIdle name = true) (names : List String) :
    files.follow [] (name :: names) = files.follow [] names := by
  have rooted : files.entry? [] = some .directory := rfl
  rw [follow, step, if_neg (not_not.mpr rooted), if_pos idle]
  simp only
  rw [rooted, if_pos (by rfl)]

/-- So do any number of them. -/
theorem follow_idles (idle : ∀ name ∈ more, Path.isIdle name = true) (names : List String) :
    files.follow [] (more ++ names) = files.follow [] names := by
  induction more with
  | nil => rfl
  | cons name more inductionHypothesis =>
    rw [List.forall_mem_cons] at idle
    rw [List.cons_append, follow_idle idle.1, inductionHypothesis idle.2]

/-- Idle names lead nowhere else. -/
theorem of_follow_idle (idle : ∀ name ∈ names, Path.isIdle name = true)
    (led : files.follow here names = .ok there) : there = here := by
  induction names with
  | nil => exact (Except.ok.inj led).symm
  | cons name names inductionHypothesis =>
    rw [List.forall_mem_cons] at idle
    obtain ⟨next, stepped, _, onward⟩ := follow_cons_iff.mp led
    obtain rfl : next = here := by
      rw [step, if_pos idle.1] at stepped
      split at stepped
      · cases stepped
      · exact (Except.ok.inj stepped).symm
    exact inductionHypothesis idle.2 onward

/-- Names that lead to a directory lead there with idle names behind them. -/
theorem follow_behind (idle : ∀ name ∈ more, Path.isIdle name = true)
    (stands : files.entry? there = some .directory) :
    files.follow here (names ++ more) = .ok there ↔ files.follow here names = .ok there := by
  have stays : files.follow there more = .ok there := by
    induction more with
    | nil => rfl
    | cons name more inductionHypothesis =>
      rw [List.forall_mem_cons] at idle
      refine follow_cons_iff.mpr ⟨there, ?_, by rw [stands]; rfl, inductionHypothesis idle.2⟩
      rw [step, if_neg (not_not.mpr stands), if_pos idle.1]
  rw [follow_append_iff]
  constructor
  · rintro ⟨middle, led, onward⟩
    rwa [of_follow_idle idle onward]
  · exact fun led => ⟨there, led, stays⟩

/-- The names of a path are those that its parents may lose, but for idle ones in front. -/
theorem anchor_names (path : Path) : ∃ lead other names,
    (∀ name ∈ lead, Path.isIdle name = true) ∧ (∀ name ∈ other, Path.isIdle name = true) ∧
      path.pieces = lead ++ names ∧
      (Pieces.split '/' path.anchor.2).map String.ofList = other ++ names := by
  rw [Path.pieces, Path.anchor]
  split
  · rename_i rest chars
    rw [chars]
    exact ⟨[""], [], (Pieces.split '/' rest).map String.ofList, by decide, by decide, rfl, rfl⟩
  · rename_i chars
    rw [chars]
    exact ⟨["."], [""], [], by decide, by decide, rfl, rfl⟩
  · rename_i rest chars
    rw [chars]
    exact ⟨["."], [""], (Pieces.split '/' rest).map String.ofList, by decide, by decide, rfl, rfl⟩
  · exact ⟨[], [], _, by simp, by simp, rfl, rfl⟩

/-- What a path begins with, and what its names begin with then. -/
theorem anchor_form (path : Path) : path.anchor.1 = "/" ∨ path.anchor.1 = "" ∨
    path.anchor.1 = "." ∧
      ∃ rest, (Pieces.split '/' path.anchor.2).map String.ofList = "" :: rest := by
  rw [Path.anchor]
  split
  · exact .inl rfl
  · exact .inr (.inr ⟨rfl, [], rfl⟩)
  · exact .inr (.inr ⟨rfl, _, rfl⟩)
  · exact .inr (.inl rfl)

/-- Names behind what a path may begin with lead where they lead by themselves. -/
theorem follow_started {start : String} {kept : List String}
    (whole : ∀ name ∈ kept, '/' ∉ name.toList)
    (form : start = "/" ∨ start = "" ∨ start = "." ∧ ∀ first ∈ kept.head?, first = "") :
    files.follow [] (Path.pieces ⟨start ++ "/".intercalate kept⟩) = files.follow [] kept := by
  have joined (names : List String) (plain : ∀ name ∈ names, '/' ∉ name.toList) :
      files.follow [] (Path.pieces ⟨"/".intercalate names⟩) = files.follow [] names := by
    cases names with
    | nil => exact follow_idle (by decide) []
    | cons name names =>
      have cut : (Path.pieces ⟨"/".intercalate (name :: names)⟩) = name :: names := by
        have plain : ∀ piece ∈ (name :: names).map String.toList, '/' ∉ piece :=
          List.forall_mem_map.mpr plain
        have same : String.ofList ∘ String.toList = id := funext fun _ => String.ofList_toList
        rw [Path.pieces, String.toList_intercalate]
        exact (congrArg _ (Pieces.split_intercalate plain (List.cons_ne_nil _ _))).trans
          (by rw [List.map_map, same, List.map_id])
      rw [cut]
  rcases form with rfl | rfl | ⟨rfl, first⟩
  · have pieces : Path.pieces ⟨"/" ++ "/".intercalate kept⟩ =
        "" :: Path.pieces ⟨"/".intercalate kept⟩ := Path.pieces_below "" _
    rw [pieces, follow_idle (by decide), joined kept whole]
  · rw [String.empty_append, joined kept whole]
  · cases kept with
    | nil => exact follow_idle (by decide) []
    | cons name names =>
      obtain rfl := first name rfl
      cases names with
      | nil => rfl
      | cons second names =>
        have pieces : Path.pieces ⟨"." ++ "/".intercalate ("" :: second :: names)⟩ =
            "." :: Path.pieces ⟨"/".intercalate (second :: names)⟩ := by
          rw [String.intercalate_cons_cons, String.empty_append, ← String.append_assoc]
          exact Path.pieces_below "." _
        rw [pieces, follow_idle (by decide), follow_idle (by decide), joined]
        exact fun name member => whole name (List.mem_cons_of_mem _ member)

/-- Names lead to a file by the last of them, which stands in a directory. -/
theorem of_follow_file (closed : Closed files) (led : files.follow [] names = .ok place)
    (stands : files.entry? place = some (.file bytes)) :
    ∃ front last there, names = front ++ [last] ∧ Path.isIdle last = false ∧ last ≠ ".." ∧
      files.follow [] front = .ok there ∧ files.step there last = .ok place := by
  rcases List.eq_nil_or_concat names with rfl | ⟨front, last, rfl⟩
  · obtain rfl := Except.ok.inj led
    cases stands
  · rw [List.concat_eq_append] at led ⊢
    obtain ⟨there, frontLed, led⟩ := follow_append_iff.mp led
    obtain ⟨further, stepped, _, led⟩ := follow_cons_iff.mp led
    obtain rfl := Except.ok.inj led
    refine ⟨front, last, there, rfl, ?_⟩
    obtain ⟨inside, ⟨_, rfl⟩ | ⟨_, up⟩ | ⟨named, notAbove, _⟩⟩ := of_step stepped
    · rw [inside] at stands
      cases stands
    · rw [up, closed.above inside] at stands
      cases stands
    · exact ⟨named, notAbove, frontLed, stepped⟩

/-- A beginning of a path that is in order is in order, unless it is empty. -/
theorem sound_front {tail : String} {front : Path} (sound : textFault? path = none)
    (whole : path.text = front.text ++ tail) (filled : front.text ≠ "") :
    textFault? front = none := by
  rw [textFault?] at sound
  split at sound
  · cases sound
  · rename_i clean
    split at sound
    · cases sound
    · split at sound
      · cases sound
      · rename_i short
        have clean : '\x00' ∉ path.text.toList := by simpa using clean
        have frontClean : '\x00' ∉ front.text.toList := fun member =>
          clean (by rw [whole, String.toList_append]; exact List.mem_append_left _ member)
        rw [whole, Utf8.size_append] at short
        rw [textFault?, if_neg (by simpa using frontClean), if_neg filled, if_neg (by omega)]

/-- Fewer names are a beginning of the text of all of them. -/
theorem intercalate_front (kept more : List String) :
    ∃ tail, "/".intercalate (kept ++ more) = "/".intercalate kept ++ tail := by
  by_cases none : kept = []
  · exact ⟨_, by rw [none, List.nil_append, String.intercalate_nil, String.empty_append]⟩
  · by_cases last : more = []
    · exact ⟨"", by rw [last, List.append_nil, String.append_empty]⟩
    · exact ⟨_, by rw [String.intercalate_append_of_ne_nil none last, String.append_assoc]⟩

/-- The parent of a path keeps the names before the last one that says something, without the idle
ones in between, which leaves a beginning of the path's text. -/
theorem parent_of_names
    (whole : (Pieces.split '/' path.anchor.2).map String.ofList = front ++ last :: behind)
    (named : Path.isIdle last = false) (silent : ∀ name ∈ behind, Path.isIdle name = true) :
    ∃ kept idle, front = kept ++ idle ∧ (∀ name ∈ idle, Path.isIdle name = true) ∧
      path.parent? = some ⟨path.anchor.1 ++ "/".intercalate kept⟩ ∧
      ∃ tail, path.text = path.anchor.1 ++ "/".intercalate kept ++ tail := by
  have reversed : Path.reversedNames path.anchor.2 = last :: front.reverse := by
    rw [Path.reversedNames, whole, List.reverse_append, List.reverse_cons, List.append_assoc,
      List.singleton_append, List.dropWhile_append_of_pos fun name member =>
        silent name (List.mem_reverse.mp member), List.dropWhile_cons_of_neg (by simp [named])]
  have cut : front = (front.reverse.dropWhile Path.isIdle).reverse ++
      (front.reverse.takeWhile Path.isIdle).reverse := by
    rw [← List.reverse_append, List.takeWhile_append_dropWhile, List.reverse_reverse]
  refine ⟨_, _, cut, fun name member => ?_, ?_, ?_⟩
  · exact List.all_eq_true.mp List.all_takeWhile _ (List.mem_reverse.mp member)
  · rw [Path.parent?]
    simp only [reversed]
  · obtain ⟨tail, text⟩ := intercalate_front (front.reverse.dropWhile Path.isIdle).reverse
      ((front.reverse.takeWhile Path.isIdle).reverse ++ last :: behind)
    refine ⟨tail, ?_⟩
    rw [String.append_assoc, ← text, ← List.append_assoc, ← cut, ← whole, Path.intercalate_texts,
      ← String.toList_inj, String.toList_append, String.toList_ofList, Path.anchor_whole]

/-- What is there is not made again. -/
theorem createDirectory_there (found : files.find path = .ok there) :
    files.createDirectory path = .error .occupied := by
  obtain ⟨sound, led⟩ := find_iff.mp found
  rw [createDirectory, sound]
  simp only
  split
  · rfl
  · rename_i last before reversed
    obtain ⟨more, whole⟩ := List.dropWhile_suffix (l := path.pieces.reverse) (· = "")
    have cut : path.pieces = before.reverse ++ last :: more.reverse := by
      rw [← List.reverse_inj, ← whole, reversed]
      simp
    rw [cut] at led
    obtain ⟨here, led, onward⟩ := follow_append_iff.mp led
    obtain ⟨place, stepped, present, _⟩ := follow_cons_iff.mp onward
    rw [placeFor_iff.mpr ⟨here, led, stepped⟩]
    exact if_pos present

/-- A directory that a path names is found. -/
theorem exists_found (there : files.hasDirectory path = true) :
    ∃ place, files.find path = .ok place := by
  rw [hasDirectory, lookup?] at there
  cases found : files.find path with
  | ok place => exact ⟨place, rfl⟩
  | error fault =>
    rw [found] at there
    cases there

/-- Nothing is made where a directory is. -/
theorem createDirectories_there (found : files.hasDirectory path = true) :
    files.createDirectories path = (.ok (), files) := by
  obtain ⟨there, reached⟩ := exists_found found
  rw [createDirectories, Path.lineage, Path.ancestors]
  split
  · rfl
  · rw [createLineage, createDirectory_there reached]
    exact if_pos ⟨rfl, found⟩

/-- No directory is made for the empty path. -/
theorem createDirectories_empty (files : FileSystem) :
    files.createDirectories ⟨""⟩ = (.ok (), files) := by
  have none : Path.lineage ⟨""⟩ = [] := by decide +kernel
  rw [createDirectories, none]
  rfl

/-- The parent of a path leads to the directories to which the names lead before the last one that
says something, and is a beginning of the path's text. -/
theorem parent_of_pieces (whole : path.pieces = front ++ last :: behind)
    (named : Path.isIdle last = false) (silent : ∀ name ∈ behind, Path.isIdle name = true) :
    ∃ parent tail, path.parent? = some parent ∧ path.text = parent.text ++ tail ∧
      ∀ (files : FileSystem) (there : Location), files.entry? there = some .directory →
        (files.follow [] parent.pieces = .ok there ↔ files.follow [] front = .ok there) := by
  obtain ⟨lead, other, names, leadIdle, otherIdle, pieces, anchored⟩ := anchor_names path
  obtain ⟨before, rfl, rfl⟩ :
      ∃ before, front = lead ++ before ∧ names = before ++ last :: behind := by
    rcases List.append_eq_append_iff.mp (pieces.symm.trans whole) with found | ⟨inner, cut, rest⟩
    · exact found
    · cases inner with
      | nil => exact ⟨[], by rw [cut, List.append_nil, List.append_nil], rest.symm⟩
      | cons first inner =>
        obtain ⟨rfl, _⟩ := List.cons.inj rest
        rw [leadIdle last (cut ▸ List.mem_append_right _ List.mem_cons_self)] at named
        cases named
  rw [← List.append_assoc] at anchored
  obtain ⟨kept, idle, cut, allIdle, up, tail, text⟩ := parent_of_names anchored named silent
  refine ⟨_, tail, up, text, fun files there stands => ?_⟩
  have plain : ∀ name ∈ kept, '/' ∉ name.toList := by
    intro name member
    have inside : name ∈ (Pieces.split '/' path.anchor.2).map String.ofList := by
      rw [anchored, cut]
      exact List.mem_append_left _ (List.mem_append_left _ member)
    obtain ⟨piece, part, rfl⟩ := List.mem_map.mp inside
    rw [String.toList_ofList]
    exact Pieces.not_mem_of_split part
  have form : path.anchor.1 = "/" ∨ path.anchor.1 = "" ∨
      path.anchor.1 = "." ∧ ∀ first ∈ kept.head?, first = "" := by
    refine (anchor_form path).imp_right (Or.imp_right (And.imp_right ?_))
    rintro ⟨rest, names⟩ first begins
    obtain ⟨more, rfl⟩ := List.head?_eq_some_iff.mp begins
    rw [anchored, cut] at names
    exact (List.cons.inj names).1
  -- idle names in front and behind are all that the two lists of names differ in
  rw [follow_started plain form, ← follow_behind allIdle stands, ← cut, follow_idles otherIdle,
    follow_idles leadIdle]

/-- What is joined to the parent of a path is looked for beside what the path names. -/
theorem follow_beside (whole : path.pieces = front ++ [last]) (named : Path.isIdle last = false)
    (up : path.parent? = some parent) :
    ∃ base, (∀ next, Path.isAbsolute ⟨next⟩ = false →
        (parent.join next).pieces = base ++ Path.pieces ⟨next⟩) ∧
      ∀ (files : FileSystem) (there : Location), files.entry? there = some .directory →
        (files.follow [] base = .ok there ↔ files.follow [] front = .ok there) := by
  obtain ⟨other, _, same, _, leads⟩ := parent_of_pieces whole named fun _ member => nomatch member
  obtain rfl := Option.some.inj (same.symm.trans up)
  obtain ⟨base, joined, form⟩ := Path.exists_pieces_join other
  refine ⟨base, joined, fun files there stands => ?_⟩
  rw [← leads files there stands]
  rcases form with pieces | slashed
  · rw [pieces]
  · rw [slashed, follow_behind (by decide) stands]

/-- The place of a name beside a path is in the directory to which the names of the path lead before
the last one. -/
theorem place_beside (whole : path.pieces = front ++ [last]) (named : Path.isIdle last = false)
    (up : path.parent? = some parent) (isName : Path.IsName name)
    (placed : files.filePlace (parent.join name) = .ok place) :
    ∃ here, files.follow [] front = .ok here ∧ place = name :: here := by
  obtain ⟨base, joined, leads⟩ := follow_beside whole named up
  obtain ⟨_, before, entry, pieces, _, _, placed, _⟩ := filePlace_iff.mp placed
  rw [joined name isName.relative, isName.pieces] at pieces
  obtain ⟨rfl, same⟩ := List.append_inj' pieces rfl
  obtain rfl := List.cons.inj same |>.1
  obtain ⟨here, led, stepped⟩ := placeFor_iff.mp placed
  obtain ⟨stands, ⟨idle, _⟩ | ⟨above, _⟩ | ⟨_, _, _, same⟩⟩ := of_step stepped
  · rw [isName.not_idle] at idle
    cases idle
  · exact absurd above isName.notAbove
  · exact ⟨here, (leads files here stands).mp led, same⟩

/-- The names before the last one of a file's path lead to the directory of the file. -/
theorem exists_front (closed : Closed files) (present : files.hasFile path = true) :
    ∃ front last there, path.pieces = front ++ [last] ∧ Path.isIdle last = false ∧
      files.follow [] front = .ok there ∧ files.entry? there = some .directory := by
  obtain ⟨place, bytes, found, stands⟩ := hasFile_iff.mp present
  obtain ⟨_, led⟩ := find_iff.mp found
  obtain ⟨front, last, there, whole, named, _, led, stepped⟩ := of_follow_file closed led stands
  exact ⟨front, last, there, whole, named, led, (of_step stepped).1⟩

/-- Where a path leads somewhere, its parent is empty or names a directory. -/
theorem parent_of_led (whole : path.pieces = front ++ last :: behind)
    (named : Path.isIdle last = false) (silent : ∀ name ∈ behind, Path.isIdle name = true)
    (found : files.find path = .ok place) :
    ∃ parent tail, path.parent? = some parent ∧ path.text = parent.text ++ tail ∧
      (parent.text = "" ∨ files.hasDirectory parent = true) := by
  obtain ⟨sound, led⟩ := find_iff.mp found
  rw [whole] at led
  obtain ⟨there, led, onward⟩ := follow_append_iff.mp led
  obtain ⟨_, stepped, _⟩ := follow_cons_iff.mp onward
  have stands := (of_step stepped).1
  obtain ⟨parent, tail, up, text, leads⟩ := parent_of_pieces whole named silent
  refine ⟨parent, tail, up, text, or_iff_not_imp_left.mpr fun filled => ?_⟩
  have reached : files.find parent = .ok there :=
    find_iff.mpr ⟨sound_front sound text filled, (leads files there stands).mpr led⟩
  rw [hasDirectory, lookup?, reached]
  simp only [stands]

/-- Where a path names a file, its parent is empty or names the directory of the file. -/
theorem parent_of_file (closed : Closed files) (present : files.hasFile path = true) :
    ∃ parent tail, path.parent? = some parent ∧ path.text = parent.text ++ tail ∧
      (parent.text = "" ∨ files.hasDirectory parent = true) := by
  obtain ⟨place, _, found, _⟩ := hasFile_iff.mp present
  obtain ⟨front, last, there, whole, named, _⟩ := exists_front closed present
  exact parent_of_led whole named (fun _ member => nomatch member) found

/-- A path whose names are all idle has no parent but the empty one. -/
theorem parent_of_idle (idle : ∀ name ∈ path.pieces, Path.isIdle name = true)
    (up : path.parent? = some parent) : parent.text = "" := by
  obtain ⟨lead, other, names, _, otherIdle, pieces, anchored⟩ := anchor_names path
  have silent : ∀ name ∈ (other ++ names).reverse, Path.isIdle name = true := by
    intro name member
    rcases List.mem_append.mp (List.mem_reverse.mp member) with inside | inside
    · exact otherIdle name inside
    · exact idle name (pieces ▸ List.mem_append_right _ inside)
  have none : Path.reversedNames path.anchor.2 = [] := by
    rw [Path.reversedNames, anchored]
    exact List.dropWhile_eq_nil_iff.mpr silent
  rw [Path.parent?] at up
  simp only [none] at up
  split at up
  · obtain rfl := Option.some.inj up
    rfl
  · cases up

/-- Where a path names anything, its parent is empty or names a directory. -/
theorem parent_of_found (found : files.find path = .ok place)
    (up : path.parent? = some parent) : parent.text = "" ∨ files.hasDirectory parent = true := by
  cases reversed : path.pieces.reverse.dropWhile Path.isIdle with
  | nil =>
    refine .inl (parent_of_idle (fun name member => ?_) up)
    exact List.dropWhile_eq_nil_iff.mp reversed name (List.mem_reverse.mpr member)
  | cons last others =>
    have cut : path.pieces.reverse.takeWhile Path.isIdle ++ last :: others =
        path.pieces.reverse := by
      rw [← reversed]
      exact List.takeWhile_append_dropWhile
    have whole : path.pieces =
        others.reverse ++ last :: (path.pieces.reverse.takeWhile Path.isIdle).reverse :=
      List.reverse_injective (by simp [cut])
    have named : Path.isIdle last = false := by
      have first := List.head?_dropWhile_not Path.isIdle path.pieces.reverse
      rw [reversed] at first
      simpa using first
    have silent : ∀ name ∈ (path.pieces.reverse.takeWhile Path.isIdle).reverse,
        Path.isIdle name = true := fun name member =>
      List.all_eq_true.mp List.all_takeWhile _ (List.mem_reverse.mp member)
    obtain ⟨other, _, same, _, there⟩ := parent_of_led whole named silent found
    obtain rfl := Option.some.inj (same.symm.trans up)
    exact there

/-- Nothing has to be made for a file that is there. -/
theorem createDirectories_parent (closed : Closed files) (present : files.hasFile path = true)
    (up : path.parent? = some parent) : files.createDirectories parent = (.ok (), files) := by
  obtain ⟨other, _, same, _, there⟩ := parent_of_file closed present
  obtain rfl := Option.some.inj (same.symm.trans up)
  rcases there with empty | found
  · rw [show other = ⟨""⟩ from congrArg Path.mk empty, createDirectories_empty]
  · exact createDirectories_there found

/-- Beside a file that is there a name has a place, unless there is no room for it or something
stands there. -/
theorem filePlace_beside (closed : Closed files) (present : files.hasFile path = true)
    (up : path.parent? = some parent) (isName : Path.IsName name)
    (short : Utf8.size name ≤ nameBound) (sound : textFault? (parent.join name) = none)
    (vacant : files.has (parent.join name) = false) :
    ∃ place, files.filePlace (parent.join name) = .ok place := by
  obtain ⟨front, last, there, whole, named, led, stands⟩ := exists_front closed present
  obtain ⟨base, joined, leads⟩ := follow_beside whole named up
  have pieces : (parent.join name).pieces = base ++ [name] := by
    rw [joined name isName.relative, isName.pieces]
  have stepped := step_name isName short stands
  have reached := (leads files there stands).mpr led
  refine ⟨name :: there, filePlace_iff.mpr ⟨sound, base, name, pieces, isName.not_idle,
    isName.notAbove, placeFor_iff.mpr ⟨there, reached, stepped⟩, fun stood => ?_⟩⟩
  have found : files.find (parent.join name) = .ok (name :: there) := by
    rw [find_iff, pieces]
    exact ⟨sound, follow_append_iff.mpr ⟨there, reached,
      follow_cons_iff.mpr ⟨_, stepped, by rw [stood]; rfl, rfl⟩⟩⟩
  rw [has, lookup?, found] at vacant
  simp [stood] at vacant

/-- A directory that could not be made is not there. -/
theorem missing_of_createDirectories {made : FileSystem} {fault : FileFault} {path : Path}
    (failed : files.createDirectories path = (.error fault, made)) :
    made.hasDirectory path = false := by
  by_contra standing
  have standing : made.hasDirectory path = true := by simpa using standing
  obtain ⟨there, found⟩ := exists_found standing
  -- making it again would be excused, since it stands there
  have excused {other : FileFault} (refused : made.createDirectory path = .error other) :
      other = .occupied ∧ made.hasDirectory path = true := by
    rw [createDirectory_there found] at refused
    exact ⟨(Except.error.inj refused).symm, standing⟩
  cases up : path.parent? with
  | none =>
    rw [createDirectories, Path.lineage, Path.ancestors, up] at failed
    cases failed
  | some parent =>
    have shorter := Path.parent?_shorter up
    rw [createDirectories, Path.lineage_of_parent up, createLineage] at failed
    split at failed
    · cases failed
    · split at failed
      · -- a parent could not be made, and is found on the way to the path
        rename_i other before refused
        obtain rfl := (Prod.mk.inj failed).2
        have made : files.createDirectories parent = (.error other, before) := refused
        rcases parent_of_found found up with empty | above
        · rw [show parent = ⟨""⟩ from congrArg Path.mk empty, createDirectories_empty] at made
          cases made
        · rw [missing_of_createDirectories made] at above
          cases above
      · split at failed
        · cases failed
        · rename_i before _ other refused
          split at failed
          · cases failed
          · rename_i unexcused
            obtain rfl := (Prod.mk.inj failed).2
            exact unexcused (excused refused)
    · rename_i other _ refused
      split at failed
      · cases failed
      · rename_i unexcused
        obtain rfl := (Prod.mk.inj failed).2
        exact unexcused (excused refused)
termination_by path.text.length

/-- A file that is there has its place. -/
theorem filePlace_there (closed : Closed files) (found : files.find path = .ok place)
    (stands : files.entry? place = some (.file bytes)) : files.filePlace path = .ok place := by
  obtain ⟨sound, led⟩ := find_iff.mp found
  obtain ⟨front, last, there, whole, named, notAbove, frontLed, stepped⟩ :=
    of_follow_file closed led stands
  have free : files.entry? place ≠ some .directory := by simp [stands]
  exact filePlace_iff.mpr ⟨sound, front, last, whole, named, notAbove,
    placeFor_iff.mpr ⟨there, frontLed, stepped⟩, free⟩

end Ancestry.FileSystem
