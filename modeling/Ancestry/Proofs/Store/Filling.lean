import Ancestry.Proofs.FileSystem.Parents
import Ancestry.Proofs.Store.Sequences

/-!
# Directories that objects were kept in

Objects are kept one after the other in a directory that had none, and whatever stands outside of
the directory may change in between. Each identifier then reads as the first object that was kept
under it, and the identifiers that begin with some digits are found. This holds for a path of any
length: where it leaves no room for the names of objects, none was kept.
-/

namespace Ancestry.LooseStore

open FileSystem

variable {directory : Path} {stem : String} {files written changed : FileSystem} {root : Location}
  {memory : MemoryStore} {objects : List Object} {object : Object} {id : ObjectId}
  {draw : UInt32} {pack : Bytes → Bytes}

/-- A directory that had no objects, in which these were kept in turn. -/
inductive Filled (directory : Path) : List Object → FileSystem → Prop where
  | empty {files : FileSystem} (empty : Empty directory files) : Filled directory [] files
  | stored {objects : List Object} {files written : FileSystem} {object : Object} {id : ObjectId}
      {draw : UInt32} {pack : Bytes → Bytes} (filled : Filled directory objects files)
      (packs : Zlib.Packs pack)
      (stored : store directory files object draw pack = (.ok id, written)) :
      Filled directory (objects ++ [object]) written
  | elsewhere {objects : List Object} {files changed : FileSystem} {root : Location}
      (filled : Filled directory objects files) (found : files.find directory = .ok root)
      (still : changed.find directory = .ok root)
      (same : ∀ inner, changed.entry? (inner ++ root) = files.entry? (inner ++ root)) :
      Filled directory objects changed

section keeping

/-- A path that names something is in order. -/
theorem sound_of_has {path : Path} (present : files.has path = true) :
    FileSystem.textFault? path = none := by
  rw [has, lookup?] at present
  cases found : files.find path with
  | ok place => exact (find_iff.mp found).1
  | error fault => simp [found] at present

/-- So is one under which a file was put. -/
theorem sound_of_placeFile {path spare : Path} {bytes : Bytes}
    (placed : files.placeFile spare path bytes = (.ok (), written)) :
    FileSystem.textFault? path = none := by
  have outcome := placed_placeFile files spare path bytes
  rw [placed] at outcome
  obtain ⟨_, _, found, _⟩ := outcome.found
  exact (find_iff.mp found).1

/-- What was kept has a path in order. -/
theorem sound_of_insert {form : Bytes}
    (inserted : insert directory files id form draw pack = (.ok (), written)) :
    FileSystem.textFault? (fileOf directory id) = none := by
  unfold insert at inserted
  generalize fileOf directory id = path at inserted ⊢
  dsimp only at inserted
  split at inserted
  · rename_i present
    exact sound_of_has present
  · split at inserted
    · exact nomatch (Prod.mk.inj inserted).1
    · split at inserted
      · rename_i placed
        exact sound_of_placeFile placed
      · exact nomatch (Prod.mk.inj inserted).1
      · exact nomatch (Prod.mk.inj inserted).1

/-- An object that was kept has its form under its identifier. -/
theorem of_store {given : ObjectId}
    (stored : store directory files object draw pack = (.ok given, written)) :
    insert directory files object.id object.frame draw pack = (.ok (), written) := by
  unfold store at stored
  generalize insert directory files object.id object.frame draw pack = kept at stored
  obtain ⟨_ | done, after⟩ := kept
  · exact nomatch (Prod.mk.inj stored).1
  · rw [(Prod.mk.inj stored).2]

/-- Where an object was kept there is room for all. -/
theorem Empty.exists_site (empty : Empty directory files)
    (stored : LooseStore.store directory files object draw pack = (.ok id, written)) :
    ∃ stem, Site directory stem ∧ (directory = ⟨stem⟩ ∨ directory = Path.below stem "") := by
  obtain ⟨stem, joined, clean, form⟩ := exists_form empty.sound
  obtain ⟨groupSize, nameSize⟩ := object.id.loosePath_sizes
  have file : fileOf directory object.id =
      Path.below stem (object.id.loosePath.1 ++ "/" ++ object.id.loosePath.2) := by
    refine joined _ ?_
    rw [String.append_assoc]
    exact object.id.loosePath_names.1.relative_append _
  have size : Utf8.size (fileOf directory object.id).text = Utf8.size stem + 42 := by
    have both := Path.size_below object.id.loosePath.1 object.id.loosePath.2
    rw [groupSize, nameSize] at both
    have names : Utf8.size (object.id.loosePath.1 ++ "/" ++ object.id.loosePath.2) = 41 := both
    rw [file, Path.size_below, names]
  refine ⟨stem, ⟨joined, clean, ?_⟩, form⟩
  have sound := sound_of_insert (of_store stored)
  rw [FileSystem.textFault?] at sound
  split at sound
  · cases sound
  · split at sound
    · cases sound
    · split at sound
      · cases sound
      · omega

/-- What a directory mirrors is what stands in it. -/
theorem Mirrors.elsewhere (mirrors : Mirrors stem root memory files)
    (form : directory = ⟨stem⟩ ∨ directory = Path.below stem "")
    (still : changed.find directory = .ok root)
    (same : ∀ inner, changed.entry? (inner ++ root) = files.entry? (inner ++ root)) :
    Mirrors stem root memory changed := by
  have group (name : String) : changed.entry? (name :: root) = files.entry? (name :: root) :=
    same [name]
  have file (name group : String) : changed.entry? (name :: group :: root) =
      files.entry? (name :: group :: root) := same [name, group]
  constructor
  · exact ⟨led_of_found still form, (same []).trans mirrors.standing.stands⟩
  · intro id held
    rw [group, mirrors.grouped id held]
  · intro name free
    rw [group, mirrors.vacant name free]
  · intro id
    rw [file]
    exact mirrors.kept id
  · intro name above present
    rw [file] at present
    exact mirrors.only name above present

/-- Objects kept in a directory without any are mirrored as in memory, if it has room for them. -/
theorem Filled.held (filled : Filled directory objects files) :
    objects = [] ∧ Empty directory files ∨
      ∃ stem root, Site directory stem ∧ (directory = ⟨stem⟩ ∨ directory = Path.below stem "") ∧
        Mirrors stem root (MemoryStore.storeAll {} objects).2 files := by
  induction filled with
  | empty empty => exact .inl ⟨rfl, empty⟩
  | @stored objects files written object id draw pack filled packs stored inductionHypothesis =>
    right
    rcases inductionHypothesis with ⟨rfl, empty⟩ | ⟨stem, root, site, form, mirrors⟩
    · obtain ⟨stem, site, form⟩ := empty.exists_site stored
      obtain ⟨root, after, again, mirrors⟩ := empty.store site form packs object draw
      rw [stored] at again
      rw [(Prod.mk.inj again).2]
      exact ⟨stem, root, site, form, mirrors⟩
    · obtain ⟨after, inserted, mirrors⟩ := mirrors.insert site packs object.id object.frame draw
      rw [of_store stored] at inserted
      rw [(Prod.mk.inj inserted).2, MemoryStore.storeAll_append]
      exact ⟨stem, root, site, form, mirrors⟩
  | @elsewhere objects files changed root filled found still same inductionHypothesis =>
    rcases inductionHypothesis with ⟨rfl, empty⟩ | ⟨stem, other, site, form, mirrors⟩
    · cases empty with
      | absent home made other missing =>
        rw [found] at missing
        cases missing
      | present other clear =>
        obtain rfl := Except.ok.inj (found.symm.trans clear.found)
        have nothing (name : String) (names : Location) :
            changed.entry? (name :: names ++ root) = none :=
          (same (name :: names)).trans (clear.nothing name names)
        exact .inl ⟨rfl, .present root ⟨still, (same []).trans clear.stands, nothing⟩⟩
    · obtain rfl := Except.ok.inj ((led_of_found found form).symm.trans mirrors.standing.led)
      exact .inr ⟨stem, root, site, form, mirrors.elsewhere form still same⟩

/-- Every object is kept where there is room for it. -/
theorem Filled.store (filled : Filled directory objects files)
    (short : Utf8.size directory.text + 42 ≤ pathBound) (packs : Zlib.Packs pack)
    (object : Object) (draw : UInt32) : ∃ written,
      LooseStore.store directory files object draw pack = (.ok object.id, written) := by
  rcases filled.held with ⟨_, empty⟩ | ⟨stem, root, site, _, mirrors⟩
  · obtain ⟨stem, site, form⟩ := LooseStore.exists_site empty.sound short
    obtain ⟨_, written, stored, _⟩ := empty.store site form packs object draw
    exact ⟨written, stored⟩
  · obtain ⟨written, inserted, _⟩ := mirrors.insert site packs object.id object.frame draw
    refine ⟨written, ?_⟩
    unfold LooseStore.store
    rw [inserted]

/-- So are objects one after the other. -/
theorem Filled.storeAll (filled : Filled directory objects files)
    (short : Utf8.size directory.text + 42 ≤ pathBound) (packs : Zlib.Packs pack)
    (more : List (Object × UInt32)) : Filled directory (objects ++ more.map Prod.fst)
      (LooseStore.storeAll directory pack files more).2 := by
  induction more generalizing objects files with
  | nil =>
    rw [List.map_nil, List.append_nil]
    exact filled
  | cons first more inductionHypothesis =>
    obtain ⟨object, draw⟩ := first
    obtain ⟨written, stored⟩ := filled.store short packs object draw
    rw [storeAll_cons stored, List.map_cons, List.append_cons]
    exact inductionHypothesis (filled.stored packs stored)

end keeping

section finding

/-- No group stands in a directory in which nothing is kept. -/
theorem Empty.ungrouped (empty : Empty directory files) (id : ObjectId) :
    files.hasDirectory (directory.join id.loosePath.1) = false := by
  obtain ⟨stem, joined, _, form⟩ := exists_form empty.sound
  obtain ⟨isGroup, _⟩ := id.loosePath_names
  rw [joined _ isGroup.relative, ← Bool.not_eq_true]
  intro grouped
  obtain ⟨place, found⟩ := exists_found grouped
  have led := (find_iff.mp found).2
  rw [Path.pieces_below, isGroup.pieces] at led
  obtain ⟨middle, led, onward⟩ := follow_append_iff.mp led
  cases empty with
  | absent home made root absent parent created clear =>
    rw [missing_of_absent clear.sound absent form] at led
    cases led
  | present root clear =>
    obtain rfl := Except.ok.inj ((led_of_found clear.found form).symm.trans led)
    obtain ⟨next, stepped, present, _⟩ := follow_cons_iff.mp onward
    have short : Utf8.size id.loosePath.1 ≤ nameBound := by
      rw [id.loosePath_sizes.1]
      decide
    rw [step_name isGroup short clear.stands] at stepped
    obtain rfl := Except.ok.inj stepped
    have vacant : files.entry? (id.loosePath.1 :: root) = none := clear.nothing id.loosePath.1 []
    rw [vacant] at present
    cases present

/-- A directory in which nothing is kept is searched with no result. -/
theorem Empty.beginningWith (empty : Empty directory files) {text : String}
    (hex : Hexadecimal text) : LooseStore.beginningWith directory files text = .ok [] := by
  apply beginningWith_ungrouped
  intro group member
  obtain ⟨id, rfl⟩ := (groups_nodup hex).2 group member
  rw [inGroup, empty.ungrouped id]
  rfl

/-- A directory of kept objects is searched with the result of a memory that keeps them. -/
theorem Filled.beginningWith (filled : Filled directory objects files) {text : String}
    (hex : Hexadecimal text) : LooseStore.beginningWith directory files text =
      .ok ((MemoryStore.storeAll {} objects).2.beginningWith text) := by
  rcases filled.held with ⟨rfl, empty⟩ | ⟨stem, root, site, _, mirrors⟩
  · rw [empty.beginningWith hex]
    exact congrArg Except.ok (MemoryStore.beginningWith_empty text).symm
  · exact mirrors.beginningWith site hex

/-- The first object that was kept under an identifier is read. -/
theorem Filled.read (filled : Filled directory objects files) {first : Object}
    (found : objects.find? (fun object => object.id = id) = some first)
    (sized : first.payload.length ≤ Text.wordMax) :
    (source directory files).read id = .ok first := by
  rcases filled.held with ⟨rfl, _⟩ | ⟨stem, root, site, _, mirrors⟩
  · cases found
  · have reads := MemoryStore.read_storeAll objects id
    simp only [found] at reads
    rw [mirrors.source site]
    exact reads sized

end finding

end Ancestry.LooseStore
