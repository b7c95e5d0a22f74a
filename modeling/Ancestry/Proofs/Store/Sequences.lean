import Ancestry.Changes
import Ancestry.Proofs.Store.Frames
import Ancestry.Proofs.Store.Prefixes

/-!
# One sequence of objects in files and in memory

Objects that are kept one after the other, in memory and in an empty directory of loose files,
get the same identifiers in both. What can be asked of the two afterwards has the same answers:
what is there, every reading of an object, and which identifiers begin with some digits. An
identifier reads as the first object that was kept under it. Neither the packer nor the numbers
that are drawn for spare files make a difference.
-/

namespace Ancestry

namespace MemoryStore

variable {store : MemoryStore} {id : ObjectId} {objects : List Object}

/-- The first object is stored before the rest. -/
theorem storeAll_cons (store : MemoryStore) (object : Object) (objects : List Object) :
    store.storeAll (object :: objects) = (object.id :: ((store.add object).storeAll objects).1,
      ((store.add object).storeAll objects).2) := rfl

/-- Some objects are stored, and then the others. -/
theorem storeAll_append (store : MemoryStore) (objects more : List Object) :
    (store.storeAll (objects ++ more)).2 = ((store.storeAll objects).2.storeAll more).2 := by
  induction objects generalizing store with
  | nil => rfl
  | cons object objects inductionHypothesis =>
    rw [List.cons_append, storeAll_cons, storeAll_cons, inductionHypothesis]

/-- Each object is stored under its own identifier. -/
theorem storeAll_ids (store : MemoryStore) (objects : List Object) :
    (store.storeAll objects).1 = objects.map Object.id := by
  induction objects generalizing store with
  | nil => rfl
  | cons object objects inductionHypothesis =>
    rw [storeAll_cons, List.map_cons, inductionHypothesis]

/-- Nothing is kept in a memory to begin with. -/
theorem getElem?_empty (id : ObjectId) : ({} : MemoryStore).forms[id]? = none :=
  Std.TreeMap.getElem?_emptyc

/-- An empty store contains nothing. -/
theorem contains_empty (id : ObjectId) : contains {} id = false :=
  Std.TreeMap.contains_emptyc

/-- No identifier is found in a memory to begin with. -/
theorem beginningWith_empty (text : String) : beginningWith {} text = [] :=
  List.eq_nil_iff_forall_not_mem.mpr fun id found => by
    rw [LooseStore.mem_beginningWith, contains_empty] at found
    cases found.1

/-- Under an identifier stays what was kept there first. -/
theorem getElem?_storeAll (store : MemoryStore) (objects : List Object) (id : ObjectId) :
    (store.storeAll objects).2.forms[id]? =
      store.forms[id]?.or ((objects.find? fun object => object.id = id).map Object.frame) := by
  induction objects generalizing store with
  | nil => exact Option.or_none.symm
  | cons object objects inductionHypothesis =>
    rw [storeAll_cons, inductionHypothesis, add, LooseStore.getElem?_memory, List.find?_cons]
    have held := LooseStore.contains_iff store object.id
    by_cases same : object.id = id
    · subst same
      rw [held]
      cases stored : store.forms[object.id]? <;> simp
    · simp [same]

/-- Each identifier reads as the first object that was kept under it. -/
theorem read_storeAll (objects : List Object) (id : ObjectId) :
    match objects.find? fun object => object.id = id with
    | some first =>
      first.payload.length ≤ Text.wordMax → (storeAll {} objects).2.read id = .ok first
    | none => (storeAll {} objects).2.read id = .error (.objectMissing id) := by
  rw [read, getElem?_storeAll, getElem?_empty, Option.none_or]
  cases found : objects.find? fun object => object.id = id with
  | none => rfl
  | some first =>
    intro sized
    simp only [Option.map_some, Source.ofStored, Object.ofFrame_frame first sized]
    rfl

/-- A store contains the identifiers of what was stored in it. -/
theorem contains_storeAll (objects : List Object) (id : ObjectId) :
    (storeAll {} objects).2.contains id = true ↔ ∃ object ∈ objects, object.id = id := by
  rw [LooseStore.contains_iff, getElem?_storeAll, getElem?_empty, Option.none_or, Option.isSome_map,
    List.find?_isSome]
  simp

end MemoryStore

namespace LooseStore

open FileSystem

/-- Files and memory of which everything that can be asked has the same answer. The identifiers that
begin with some digits are the same in some order. -/
structure Alike (directory : Path) (files : FileSystem) (memory : MemoryStore) : Prop where
  contains : ∀ id, contains directory files id = memory.contains id
  read : ∀ id, (source directory files).read id = memory.source.read id
  kind : ∀ id, (source directory files).kind id = memory.source.kind id
  header : ∀ id, (source directory files).header id = memory.source.header id
  message : ∀ id, (source directory files).message id = memory.source.message id
  commit : ∀ id, (source directory files).commit id = memory.source.commit id
  entries : ∀ id, (source directory files).entries id = memory.source.entries id
  between : ∀ old new, Changes.between (source directory files) old new =
    Changes.between memory.source old new
  beginningWith : ∀ text, Hexadecimal text → ∃ found,
    beginningWith directory files text = .ok found ∧ found.Perm (memory.beginningWith text)

/-- A directory that is there, with nothing in it. -/
structure Clear (directory : Path) (files : FileSystem) (root : Location) : Prop where
  found : files.find directory = .ok root
  stands : files.entry? root = some .directory
  nothing : ∀ name names, files.entry? (name :: names ++ root) = none

/-- A directory in which nothing is kept. Either it is there with nothing in it, or it is absent
and can be made; `home` is then its path without names at the end that mean the directory
itself. -/
inductive Empty (directory : Path) (files : FileSystem) : Prop where
  | present (root : Location) (clear : Clear directory files root)
  | absent (home : Path) (made : FileSystem) (root : Location)
      (missing : files.find directory = .error .absent)
      (parent : ∀ name, Path.IsName name → (directory.join name).parent? = some home)
      (created : files.createDirectories home = (.ok (), made))
      (clear : Clear directory made root)

variable {directory : Path} {stem : String} {files made : FileSystem} {root : Location}
  {memory : MemoryStore} {pack : Bytes → Bytes}

/-- Files that are the same source as a memory and searched like it answer like it. -/
theorem alike_of_source (contains : ∀ id, contains directory files id = memory.contains id)
    (same : source directory files = memory.source)
    (beginningWith : ∀ text, Hexadecimal text →
      beginningWith directory files text = .ok (memory.beginningWith text)) :
    Alike directory files memory := by
  refine ⟨contains, fun id => congrArg (·.read id) same, ?_, ?_, ?_, ?_, ?_, ?_, fun text hex =>
    ⟨_, beginningWith text hex, List.Perm.refl _⟩⟩
  all_goals
    rw [same]
    intros
    rfl

/-- Files that mirror a memory answer like it. -/
theorem Mirrors.alike (mirrors : Mirrors stem root memory files) (site : Site directory stem) :
    Alike directory files memory :=
  alike_of_source (mirrors.contains site) (mirrors.source site) fun _ hex =>
    mirrors.beginningWith site hex

/-- Names are joined to a path in order behind one slash. -/
theorem exists_form (sound : FileSystem.textFault? directory = none) :
    ∃ stem, (∀ next, Path.isAbsolute ⟨next⟩ = false →
        directory.join next = Path.below stem next) ∧
      '\x00' ∉ stem.toList ∧ (directory = ⟨stem⟩ ∨ directory = Path.below stem "") := by
  rw [FileSystem.textFault?] at sound
  split at sound
  · cases sound
  · rename_i clean
    split at sound
    · cases sound
    · rename_i filled
      obtain ⟨stem, joined, text⟩ := Path.exists_stem filled
      have plain : '\x00' ∉ directory.text.toList := by simpa using clean
      rcases text with text | text
      · rw [text] at plain
        exact ⟨stem, joined, plain, .inl (congrArg Path.mk text)⟩
      · have same : directory = Path.below stem "" := by
          rw [Path.below, String.append_empty, ← text]
        rw [text, String.toList_append, List.mem_append, not_or] at plain
        exact ⟨stem, joined, plain.1, .inr same⟩

/-- A path with room for names is one to which the names of loose files can be joined. -/
theorem exists_site (sound : FileSystem.textFault? directory = none)
    (short : Utf8.size directory.text + 42 ≤ pathBound) :
    ∃ stem, Site directory stem ∧ (directory = ⟨stem⟩ ∨ directory = Path.below stem "") := by
  obtain ⟨stem, joined, clean, form⟩ := exists_form sound
  refine ⟨stem, ⟨joined, clean, ?_⟩, form⟩
  rcases form with rfl | rfl
  · exact short
  · rw [Path.size_below] at short
    omega

/-- The names of a directory that is absent lead nowhere, with a slash behind them or without. -/
theorem missing_of_absent (sound : FileSystem.textFault? directory = none)
    (absent : files.find directory = .error .absent)
    (form : directory = ⟨stem⟩ ∨ directory = Path.below stem "") :
    files.follow [] (Path.pieces ⟨stem⟩) = .error .absent := by
  rw [find, sound] at absent
  rcases form with rfl | rfl
  · exact absent
  · simp only at absent
    rw [follow_slash] at absent
    split at absent
    · rename_i missing
      rw [missing]
      exact absent
    · split at absent <;> cases absent

/-- The path of a directory that is found is in order. -/
theorem Clear.sound (clear : Clear directory files root) :
    FileSystem.textFault? directory = none := (find_iff.mp clear.found).1

/-- A directory with nothing in it mirrors an empty memory. -/
theorem Clear.mirrors (clear : Clear directory files root)
    (form : directory = ⟨stem⟩ ∨ directory = Path.below stem "") : Mirrors stem root {} files := by
  refine ⟨⟨led_of_found clear.found form, clear.stands⟩, fun id held => ?_,
    fun group _ => clear.nothing group [], fun id => ?_, fun name group present => ?_⟩
  · rw [MemoryStore.contains_empty] at held
    cases held
  · have vacant : files.entry? (id.loosePath.2 :: id.loosePath.1 :: root) = none :=
      clear.nothing id.loosePath.2 [id.loosePath.1]
    rw [MemoryStore.getElem?_empty, vacant]
    exact .nothing
  · have absent : files.entry? (name :: group :: root) = none := clear.nothing name [group]
    rw [absent] at present
    cases present

/-- Nothing is found where no group gives anything. -/
theorem beginningWith_ungrouped {text : String}
    (none : ∀ group ∈ groups text.toLower,
      inGroup directory files text.toLower group = .ok []) :
    beginningWith directory files text = .ok [] := by
  rw [beginningWith, mapM_ok none, List.map_const', Except.map, List.flatten_replicate_nil,
    List.mergeSort_nil]

/-- Below a directory that is absent nothing is found, as in an empty memory. -/
theorem alike_missing (site : Site directory stem)
    (missing : files.follow [] (Path.pieces ⟨stem⟩) = .error .absent) :
    Alike directory files {} := by
  have unfound (id : ObjectId) : files.find (fileOf directory id) = .error .absent := by
    rw [site.fileOf]
    exact find_below_missing missing (site.admits id).fits
  refine alike_of_source (fun id => ?_) (congrArg Source.mk (funext fun id => ?_))
    fun text hex => ?_
  · rw [contains_iff, MemoryStore.getElem?_empty, contains, hasFile, lookup?, unfound]
    rfl
  · unfold read
    rw [FileSystem.read, unfound, MemoryStore.read, MemoryStore.getElem?_empty]
  · have none (group : String) (member : group ∈ groups text.toLower) :
        inGroup directory files text.toLower group = .ok [] := by
      obtain ⟨id, rfl⟩ := (groups_nodup hex).2 group member
      have admits := site.admits id
      rw [inGroup, site.joined _ admits.isGroup.relative, hasDirectory, lookup?,
        find_below_missing missing admits.groupFits]
      rfl
    rw [beginningWith_ungrouped none, MemoryStore.beginningWith_empty]

/-- The first form is kept below a directory that is absent as in one that was made for it. -/
theorem insert_missing {home : Path} (site : Site directory stem)
    (missing : files.follow [] (Path.pieces ⟨stem⟩) = .error .absent)
    (parent : ∀ name, Path.IsName name → (directory.join name).parent? = some home)
    (created : files.createDirectories home = (.ok (), made))
    (mirrors : Mirrors stem root {} made) (id : ObjectId) (form : Bytes) (draw : UInt32)
    (pack : Bytes → Bytes) :
    insert directory files id form draw pack = insert directory made id form draw pack := by
  have admits := site.admits id
  have vacant : made.entry? (id.loosePath.1 :: root) = none :=
    mirrors.vacant _ fun other held => by
      rw [MemoryStore.contains_empty] at held
      cases held
  have above : (Path.below stem id.loosePath.1).parent? = some home := by
    rw [← site.joined _ admits.isGroup.relative]
    exact parent _ admits.isGroup
  have unheld : files.has (fileOf directory id) = false := by
    rw [has, lookup?, site.fileOf, find_below_missing missing admits.fits]
    rfl
  have unheldMade : made.has (fileOf directory id) = false := by
    rw [mirrors.has site, MemoryStore.contains_empty]
  rw [insert, insert, unheld, unheldMade, site.fileOf,
    Path.parent?_below stem admits.isGroup admits.isName, Option.getD_some, if_neg (by decide),
    if_neg (by decide)]
  simp only
  rw [createDirectories_missing missing above created mirrors.standing admits.toAdmits vacant,
    mirrors.standing.createDirectories_vacant admits.toAdmits vacant]

/-- Where nothing stands under a name in a directory, nothing is kept below that name. -/
theorem empty_of_vacant {group : String} (standing : Standing files stem root)
    (admits : Admits stem group) (vacant : ∀ names, files.entry? (names ++ group :: root) = none) :
    Empty (Path.below stem group) files := by
  have nothing : files.entry? (group :: root) = none := vacant []
  have extended := extends_insert nothing .directory
  refine .absent (Path.below stem group) (files.insert (group :: root) .directory) (group :: root)
    ?_ (fun name isName => ?_) (standing.createDirectories_vacant admits nothing)
    ⟨?_, ?_, fun name names => ?_⟩
  · rw [standing.find_group admits, nothing]
    rfl
  · rw [Path.join_below stem admits.isGroup isName.relative,
      Path.parent?_below stem admits.isGroup isName]
  · rw [(standing.extend extended).find_group admits, entry?_insert, if_pos rfl]
    rfl
  · rw [entry?_insert, if_pos rfl]
  · have deeper : name :: names ++ group :: root ≠ group :: root := fun same => by
      have lengths := congrArg List.length same
      simp only [List.cons_append, List.length_cons, List.length_append] at lengths
      omega
    rw [entry?_insert, if_neg deeper]
    exact vacant (name :: names)

/-- After one object the others are kept. -/
theorem storeAll_cons {object : Object} {draw : UInt32} {given : Except Failure ObjectId}
    {made : FileSystem} (stored : store directory files object draw pack = (given, made))
    (objects : List (Object × UInt32)) :
    storeAll directory pack files ((object, draw) :: objects) =
      (given :: (storeAll directory pack made objects).1,
        (storeAll directory pack made objects).2) := by
  rw [storeAll, stored]

/-- Keeping objects in files that mirror a memory succeeds and leaves them so. -/
theorem Mirrors.storeAll (site : Site directory stem) (packs : Zlib.Packs pack)
    (mirrors : Mirrors stem root memory files) (objects : List (Object × UInt32)) :
    (LooseStore.storeAll directory pack files objects).1 =
        (memory.storeAll (objects.map Prod.fst)).1.map .ok ∧
      Mirrors stem root (memory.storeAll (objects.map Prod.fst)).2
        (LooseStore.storeAll directory pack files objects).2 := by
  induction objects generalizing memory files with
  | nil => exact ⟨rfl, mirrors⟩
  | cons first objects inductionHypothesis =>
    obtain ⟨object, draw⟩ := first
    obtain ⟨written, inserted, after⟩ := mirrors.insert site packs object.id object.frame draw
    have stored : store directory files object draw pack = (.ok object.id, written) := by
      unfold store
      rw [inserted]
    obtain ⟨given, last⟩ := inductionHypothesis after
    rw [storeAll_cons stored, List.map_cons, MemoryStore.storeAll_cons]
    exact ⟨congrArg (Except.ok object.id :: ·) given, last⟩

/-- The path of a directory in which nothing is kept is in order. -/
theorem Empty.sound (empty : Empty directory files) : FileSystem.textFault? directory = none := by
  cases empty with
  | present root clear => exact clear.sound
  | absent home made root absent parent created clear => exact clear.sound

/-- The first object that is kept in a directory without any. -/
theorem Empty.store (empty : Empty directory files) (site : Site directory stem)
    (form : directory = ⟨stem⟩ ∨ directory = Path.below stem "") (packs : Zlib.Packs pack)
    (object : Object) (draw : UInt32) :
    ∃ root written,
      LooseStore.store directory files object draw pack = (.ok object.id, written) ∧
        Mirrors stem root (MemoryStore.add {} object) written := by
  cases empty with
  | present root clear =>
    obtain ⟨written, inserted, after⟩ :=
      (clear.mirrors form).insert site packs object.id object.frame draw
    refine ⟨root, written, ?_, after⟩
    unfold LooseStore.store
    rw [inserted]
  | absent home made root absent parent created clear =>
    have missing := missing_of_absent clear.sound absent form
    have mirrors := clear.mirrors form
    obtain ⟨written, inserted, after⟩ := mirrors.insert site packs object.id object.frame draw
    refine ⟨root, written, ?_, after⟩
    unfold LooseStore.store
    rw [insert_missing site missing parent created mirrors, inserted]

/-- Keeping objects in a directory without any succeeds as in memory and leaves both alike. -/
theorem Empty.storeAll (empty : Empty directory files)
    (short : Utf8.size directory.text + 42 ≤ pathBound) (packs : Zlib.Packs pack)
    (objects : List (Object × UInt32)) :
    (LooseStore.storeAll directory pack files objects).1 =
        (MemoryStore.storeAll {} (objects.map Prod.fst)).1.map .ok ∧
      Alike directory (LooseStore.storeAll directory pack files objects).2
        (MemoryStore.storeAll {} (objects.map Prod.fst)).2 := by
  obtain ⟨stem, site, form⟩ := exists_site empty.sound short
  cases objects with
  | nil =>
    cases empty with
    | present root clear => exact ⟨rfl, (clear.mirrors form).alike site⟩
    | absent home made root absent parent created clear =>
      exact ⟨rfl, alike_missing site (missing_of_absent clear.sound absent form)⟩
  | cons first objects =>
    obtain ⟨object, draw⟩ := first
    obtain ⟨root, written, stored, mirrors⟩ := empty.store site form packs object draw
    obtain ⟨given, mirrors⟩ := mirrors.storeAll site packs objects
    rw [storeAll_cons stored, List.map_cons, MemoryStore.storeAll_cons]
    exact ⟨congrArg (Except.ok object.id :: ·) given, mirrors.alike site⟩

/-- The same objects kept in a directory without any and in memory get the same identifiers, and
whatever is asked of the two afterwards has the same answer, for every packer that unpacking undoes
and whatever numbers are drawn for spare files. Each identifier reads as the first object that was
kept under it, and those that begin with the digits of a text are found.

Proof: one invariant relates files and memory, and each object leaves it: the files of the directory
are those of the identifiers in memory, with bytes that unpack to their forms. A spare file is never
one of them. -/
theorem stores_agree (empty : Empty directory files)
    (short : Utf8.size directory.text + 42 ≤ pathBound) (packs : Zlib.Packs pack)
    (objects : List (Object × UInt32)) :
    let kept := objects.map Prod.fst
    let given := (storeAll directory pack files objects).1
    let last := (storeAll directory pack files objects).2
    let ids := (MemoryStore.storeAll {} kept).1
    let memory := (MemoryStore.storeAll {} kept).2
    given = ids.map .ok ∧ ids = kept.map Object.id ∧ Alike directory last memory ∧
      (∀ id, match kept.find? fun object => object.id = id with
        | some first => first.payload.length ≤ Text.wordMax → memory.read id = .ok first
        | none => memory.read id = .error (.objectMissing id)) ∧
      (∀ id, memory.contains id = true ↔ ∃ object ∈ kept, object.id = id) ∧
      ∀ text id, id ∈ memory.beginningWith text ↔
        (∃ object ∈ kept, object.id = id) ∧ text.toLower.toList <+: id.hexChars := by
  intro kept
  obtain ⟨given, alike⟩ := empty.storeAll short packs objects
  refine ⟨given, MemoryStore.storeAll_ids {} kept, alike, MemoryStore.read_storeAll kept,
    MemoryStore.contains_storeAll kept, fun text id => ?_⟩
  rw [mem_beginningWith]
  exact and_congr_left' (MemoryStore.contains_storeAll kept id)

/-- Two objects, one of them kept twice, below the root of files that are empty. -/
theorem stores_agree_afresh :
    let objects : List (Object × UInt32) :=
      [(⟨.blob, [104, 105]⟩, 1), (⟨.tree, []⟩, 2), (⟨.blob, [104, 105]⟩, 3)]
    let kept := objects.map Prod.fst
    Empty (Path.below "" "objects") {} ∧
      Utf8.size (Path.below "" "objects").text + 42 ≤ pathBound ∧ Zlib.Packs Zlib.pack ∧
      (storeAll (Path.below "" "objects") Zlib.pack {} objects).1 = kept.map (.ok ·.id) ∧
      Alike (Path.below "" "objects")
        (storeAll (Path.below "" "objects") Zlib.pack {} objects).2
        (MemoryStore.storeAll {} kept).2 := by
  intro objects kept
  have standing : Standing {} "" [] := ⟨by rfl, rfl⟩
  have admits : Admits "" "objects" :=
    ⟨⟨by decide, by decide, by decide, by decide⟩, by decide, by decide, by decide +kernel⟩
  have empty : Empty (Path.below "" "objects") {} :=
    empty_of_vacant standing admits fun names => by
      cases names <;> exact Std.TreeMap.getElem?_emptyc
  have short : Utf8.size (Path.below "" "objects").text + 42 ≤ pathBound := by decide
  obtain ⟨given, ids, alike, _⟩ := stores_agree empty short Zlib.packs_pack objects
  refine ⟨empty, short, Zlib.packs_pack, ?_, alike⟩
  rw [given, ids, List.map_map]
  rfl

end LooseStore

end Ancestry
