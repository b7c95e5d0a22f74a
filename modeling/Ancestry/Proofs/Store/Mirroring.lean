import Ancestry.Proofs.FileSystem.Spares
import Ancestry.Proofs.Store.Packing
import Ancestry.Proofs.Text.Hexadecimal
import Ancestry.Store.Loose
import Ancestry.Store.Memory

/-!
# Loose files that mirror a memory

A directory of loose files mirrors a store in memory when exactly the groups of the stored
identifiers stand in it, and in each of them exactly the files of these identifiers with bytes
that unpack to the stored forms. Keeping a form under an identifier in both leaves them so, whether
the identifier is new or not, and both are read alike. The spare file through which a form is kept
stands beside files that are named by digits only, so that it never is one of them.
-/

namespace Ancestry

namespace ObjectId

variable {id other : ObjectId}

/-- The digits of an identifier are those of its two names. -/
theorem loosePath_chars (id : ObjectId) :
    id.loosePath.1.toList ++ id.loosePath.2.toList = id.hexChars := by
  simp [loosePath]

/-- Different identifiers have different paths. -/
theorem loosePath_injective : Function.Injective loosePath := by
  intro left right same
  apply hexChars_injective
  rw [← loosePath_chars, ← loosePath_chars, same]

/-- The two names have two and 38 digits. -/
theorem loosePath_lengths (id : ObjectId) :
    id.loosePath.1.toList.length = 2 ∧ id.loosePath.2.toList.length = 38 := by
  simp [loosePath, length_hexChars]

/-- The two names of a loose path are made of digits. -/
theorem loosePath_digits (id : ObjectId) :
    (∀ c ∈ id.loosePath.1.toList, c ∈ id.hexChars) ∧
      ∀ c ∈ id.loosePath.2.toList, c ∈ id.hexChars := by
  rw [← loosePath_chars id]
  exact ⟨fun c member => List.mem_append_left _ member,
    fun c member => List.mem_append_right _ member⟩

/-- At least two digits are a name. -/
theorem isName_of_digits {name : String} (digits : ∀ c ∈ name.toList, c ∈ id.hexChars)
    (two : 2 ≤ name.toList.length) : Path.IsName name := by
  have dot : '.' ∉ name.toList := by
    intro member
    obtain ⟨value, below, same⟩ := mem_hexOfBytes (digits '.' member)
    have each : ∀ value < 16, '.' ≠ hexDigit value := by decide
    exact each value below same
  refine ⟨?_, fun slash => (of_mem_hexChars (digits '/' slash)).2.2.2.1 rfl, ?_, ?_⟩
  · rintro rfl
    simp at two
  · rintro rfl
    simp at dot
  · rintro rfl
    simp at dot

/-- All the digits are a name. -/
theorem isName_toHex (id : ObjectId) : Path.IsName id.toHex := by
  have digits : ∀ c ∈ id.toHex.toList, c ∈ id.hexChars := by
    intro c member
    rwa [toList_toHex] at member
  exact isName_of_digits digits (by simp [toList_toHex, length_hexChars])

/-- The two parts of a loose path are names. -/
theorem loosePath_names (id : ObjectId) :
    Path.IsName id.loosePath.1 ∧ Path.IsName id.loosePath.2 := by
  obtain ⟨groupDigits, nameDigits⟩ := id.loosePath_digits
  obtain ⟨groupLength, nameLength⟩ := id.loosePath_lengths
  exact ⟨isName_of_digits groupDigits (by omega), isName_of_digits nameDigits (by omega)⟩

/-- The bytes of the two names of a loose path. -/
theorem loosePath_sizes (id : ObjectId) :
    Utf8.size id.loosePath.1 = 2 ∧ Utf8.size id.loosePath.2 = 38 := by
  obtain ⟨groupDigits, nameDigits⟩ := id.loosePath_digits
  obtain ⟨groupLength, nameLength⟩ := id.loosePath_lengths
  constructor
  · rw [Utf8.size_plain fun c member => (of_mem_hexChars (groupDigits c member)).1, groupLength]
  · rw [Utf8.size_plain fun c member => (of_mem_hexChars (nameDigits c member)).1, nameLength]

end ObjectId

namespace LooseStore

open FileSystem

/-- A directory whose path is in order and leaves room for the names of loose files; `stem` is
its path without a slash at the end. -/
structure Site (directory : Path) (stem : String) : Prop where
  joined : ∀ next, Path.isAbsolute ⟨next⟩ = false → directory.join next = Path.below stem next
  clean : '\x00' ∉ stem.toList
  short : Utf8.size stem + 42 ≤ pathBound

variable {directory : Path} {stem : String} {root : Location} {memory : MemoryStore}
  {files : FileSystem} {id : ObjectId} {form bytes : Bytes} {draw : UInt32}
  {pack : Bytes → Bytes}

/-- The names of a loose file may stand below the directory. -/
theorem Site.admits (site : Site directory stem) (id : ObjectId) :
    AdmitsFile stem id.loosePath.1 id.loosePath.2 := by
  obtain ⟨groupDigits, nameDigits⟩ := id.loosePath_digits
  obtain ⟨isGroup, isName⟩ := id.loosePath_names
  obtain ⟨groupSize, nameSize⟩ := id.loosePath_sizes
  have size : Utf8.size (id.loosePath.1 ++ "/" ++ id.loosePath.2) = 41 := by
    have whole := Path.size_below id.loosePath.1 id.loosePath.2
    rwa [groupSize, nameSize] at whole
  have zero (name : String) (digits : ∀ c ∈ name.toList, c ∈ id.hexChars) :
      '\x00' ∉ name.toList := fun member => (ObjectId.of_mem_hexChars (digits _ member)).2.2.2.2 rfl
  have bound : nameBound = 255 := rfl
  have fits : Fits stem (id.loosePath.1 ++ "/" ++ id.loosePath.2) := by
    refine ⟨⟨site.clean, ?_⟩, ?_⟩
    · simp [String.toList_append, zero _ groupDigits, zero _ nameDigits]
    · have short := site.short
      omega
  exact ⟨⟨isGroup, by omega, fits.front⟩, isName, by omega, fits⟩

/-- The path of a loose file. -/
theorem Site.fileOf (site : Site directory stem) (id : ObjectId) :
    fileOf directory id = Path.below stem (id.loosePath.1 ++ "/" ++ id.loosePath.2) := by
  refine site.joined _ ?_
  rw [String.append_assoc]
  exact (site.admits id).isGroup.relative_append _

/-- The name of a spare file may stand in a directory. -/
theorem isName_spareName (draw : UInt32) : Path.IsName (spareName draw) :=
  FileSystem.isName_spareName (by decide) ⟨'t', by decide, by decide⟩

/-- The name of a spare file may stand beside a loose file. -/
theorem Site.admits_spare (site : Site directory stem) (id : ObjectId) (draw : UInt32) :
    AdmitsFile stem id.loosePath.1 (spareName draw) := by
  obtain ⟨toAdmits, _⟩ := site.admits id
  have short : Utf8.size (spareName draw) ≤ 18 := FileSystem.size_spareName "tmp-obj-" draw
  have bound : nameBound = 255 := rfl
  refine ⟨toAdmits, isName_spareName draw, by omega, ⟨⟨site.clean, ?_⟩, ?_⟩⟩
  · rw [String.toList_append, String.toList_append, List.mem_append, List.mem_append, not_or,
      not_or]
    refine ⟨⟨toAdmits.groupFits.clean.2, by decide⟩, fun member => ?_⟩
    rcases of_mem_spareName member with front | digit
    · exact absurd front (by decide)
    · exact absurd digit (by decide)
  · have whole := Path.size_below id.loosePath.1 (spareName draw)
    rw [id.loosePath_sizes.1] at whole
    have size : Utf8.size (id.loosePath.1 ++ "/" ++ spareName draw) ≤ 21 := by
      have same : Utf8.size (id.loosePath.1 ++ "/" ++ spareName draw) = _ := whole
      omega
    have room := site.short
    omega

/-- No loose file has the name of a spare file, which begins with no digit. -/
theorem spareName_ne (id : ObjectId) (draw : UInt32) : id.loosePath.2 ≠ spareName draw := by
  intro same
  have first : 't' ∈ (spareName draw).toList := by
    rw [spareName, FileSystem.spareName, String.toList_append]
    exact List.mem_append_left _ (by decide)
  obtain ⟨value, below, digit⟩ := ObjectId.mem_hexOfBytes (id.loosePath_digits.2 't' (same ▸ first))
  have each : ∀ value < 16, 't' ≠ ObjectId.hexDigit value := by decide
  exact each value below digit

/-- What stands in the file of a form that is kept, or not: bytes that unpack to the form, or
nothing. -/
inductive Keeps : Option FileEntry → Option Bytes → Prop where
  | nothing : Keeps none none
  | packed {bytes form : Bytes} (unpacked : Zlib.unpack? bytes = some form) :
      Keeps (some (.file bytes)) (some form)

/-- Something stands in the file when a form is kept. -/
theorem Keeps.isSome {entry : Option FileEntry} {form : Option Bytes} (keeps : Keeps entry form) :
    entry.isSome = form.isSome := by
  cases keeps <;> rfl

/-- Either nothing stands there and nothing is kept, or a file that unpacks to the form. -/
theorem Keeps.form_cases {entry : Option FileEntry} {kept : Option Bytes}
    (keeps : Keeps entry kept) :
    entry = none ∧ kept = none ∨ ∃ bytes form, entry = some (.file bytes) ∧ kept = some form ∧
      Zlib.unpack? bytes = some form := by
  cases keeps with
  | nothing => exact .inl ⟨rfl, rfl⟩
  | packed unpacked => exact .inr ⟨_, _, rfl, rfl, unpacked⟩

/-- Loose files that hold what a memory holds. -/
structure Mirrors (stem : String) (root : Location) (memory : MemoryStore) (files : FileSystem) :
    Prop where
  standing : Standing files stem root
  grouped : ∀ id : ObjectId, memory.contains id = true →
    files.entry? (id.loosePath.1 :: root) = some .directory
  vacant : ∀ group, (∀ id : ObjectId, memory.contains id = true → id.loosePath.1 ≠ group) →
    files.entry? (group :: root) = none
  kept : ∀ id : ObjectId, Keeps (files.entry? (id.loosePath.2 :: id.loosePath.1 :: root))
    memory.forms[id]?
  only : ∀ name group, (files.entry? (name :: group :: root)).isSome →
    ∃ id : ObjectId, memory.contains id = true ∧ id.loosePath = (group, name)

/-- A group is there when something is kept in it, and otherwise nothing stands there. -/
theorem Mirrors.group_cases (mirrors : Mirrors stem root memory files) (group : String) :
    (∃ id : ObjectId, memory.contains id = true ∧ id.loosePath.1 = group) ∧
        files.entry? (group :: root) = some .directory ∨
      (∀ id : ObjectId, memory.contains id = true → id.loosePath.1 ≠ group) ∧
        files.entry? (group :: root) = none := by
  by_cases shared : ∃ id : ObjectId, memory.contains id = true ∧ id.loosePath.1 = group
  · obtain ⟨id, held, rfl⟩ := shared
    exact .inl ⟨⟨id, held, rfl⟩, mirrors.grouped id held⟩
  · have free (id : ObjectId) (held : memory.contains id = true) : id.loosePath.1 ≠ group :=
      fun same => shared ⟨id, held, same⟩
    exact .inr ⟨free, mirrors.vacant group free⟩

/-- An identifier is kept when there is a form for it. -/
theorem contains_iff (memory : MemoryStore) (id : ObjectId) :
    memory.contains id = memory.forms[id]?.isSome := by
  rw [MemoryStore.contains, Std.TreeMap.contains_eq_isSome_getElem?]

/-- A form is kept in memory where there is none yet. -/
theorem getElem?_memory (memory : MemoryStore) (id other : ObjectId) (form : Bytes) :
    (memory.insert id form).forms[other]? =
      if id = other ∧ memory.contains id = false then some form else memory.forms[other]? := by
  rw [MemoryStore.insert, Std.TreeMap.getElem?_insertIfNew, MemoryStore.contains]
  simp only [Std.LawfulEqCmp.compare_eq_iff_eq, ← Std.TreeMap.contains_iff_mem, Bool.not_eq_true]

/-- What is found at the path of an identifier. -/
theorem Mirrors.find (mirrors : Mirrors stem root memory files) (site : Site directory stem)
    (id : ObjectId) :
    files.find (LooseStore.fileOf directory id) =
      if memory.contains id then .ok (id.loosePath.2 :: id.loosePath.1 :: root)
      else .error .absent := by
  have admits := site.admits id
  have kept := (mirrors.kept id).isSome
  rw [← contains_iff] at kept
  rw [site.fileOf]
  cases held : memory.contains id with
  | true => rw [mirrors.standing.find_file admits (mirrors.grouped id held), kept, held]
  | false =>
    rcases mirrors.group_cases id.loosePath.1 with ⟨_, present⟩ | ⟨_, vacant⟩
    · rw [mirrors.standing.find_file admits present, kept, held]
    · rw [mirrors.standing.find_ungrouped admits vacant]
      rfl

/-- What stands at the path of an identifier unpacks to the form that is kept in memory. -/
theorem Mirrors.lookup? (mirrors : Mirrors stem root memory files) (site : Site directory stem)
    (id : ObjectId) :
    Keeps (files.lookup? (LooseStore.fileOf directory id)) memory.forms[id]? := by
  have kept := mirrors.kept id
  rw [FileSystem.lookup?, mirrors.find site, contains_iff]
  cases stored : memory.forms[id]? with
  | none => exact .nothing
  | some form =>
    rw [stored] at kept
    exact kept

/-- Something stands at the path of an identifier when it is kept in memory. -/
theorem Mirrors.has (mirrors : Mirrors stem root memory files) (site : Site directory stem)
    (id : ObjectId) : files.has (LooseStore.fileOf directory id) = memory.contains id := by
  rw [FileSystem.has, (mirrors.lookup? site id).isSome, contains_iff]

/-- Files and memory hold the same identifiers. -/
theorem Mirrors.contains (mirrors : Mirrors stem root memory files) (site : Site directory stem)
    (id : ObjectId) : LooseStore.contains directory files id = memory.contains id := by
  rw [LooseStore.contains, hasFile, contains_iff]
  rcases (mirrors.lookup? site id).form_cases with ⟨stands, stored⟩ | ⟨_, _, stands, stored, _⟩ <;>
    rw [stands, stored] <;> rfl

/-- Files and memory are read alike. -/
theorem Mirrors.read (mirrors : Mirrors stem root memory files) (site : Site directory stem)
    (id : ObjectId) : LooseStore.read directory files id = memory.read id := by
  unfold LooseStore.read
  rw [FileSystem.read, mirrors.find site, MemoryStore.read, contains_iff]
  rcases (mirrors.kept id).form_cases with ⟨_, stored⟩ | ⟨bytes, form, stands, stored, unpacked⟩
  · rw [stored]
    rfl
  · rw [stored]
    simp only [Option.isSome_some, if_true, stands, unpacked]

/-- Files that mirror a memory are the same source. -/
theorem Mirrors.source (mirrors : Mirrors stem root memory files) (site : Site directory stem) :
    LooseStore.source directory files = memory.source :=
  congrArg Source.mk (funext fun id => mirrors.read site id)

/-- An entry at a location and perhaps one for its group are all that is new. -/
structure Adds (id : ObjectId) (root : Location) (entry : FileEntry) (files made : FileSystem) :
    Prop where
  extended : Extends files made
  file : made.entry? (id.loosePath.2 :: id.loosePath.1 :: root) = some entry
  group : made.entry? (id.loosePath.1 :: root) = some .directory
  others : ∀ place, place ≠ id.loosePath.2 :: id.loosePath.1 :: root →
    place ≠ id.loosePath.1 :: root → made.entry? place = files.entry? place

/-- The group of an identifier is there when it was made, and nothing else is new. -/
theorem Mirrors.group_made (mirrors : Mirrors stem root memory files)
    (site : Site directory stem) (id : ObjectId) :
    ∃ made, files.createDirectories (Path.below stem id.loosePath.1) = (.ok (), made) ∧
      Extends files made ∧ made.entry? (id.loosePath.1 :: root) = some .directory ∧
      ∀ place, place ≠ id.loosePath.1 :: root → made.entry? place = files.entry? place := by
  have admits := site.admits id
  rcases mirrors.group_cases id.loosePath.1 with ⟨_, present⟩ | ⟨_, vacant⟩
  · exact ⟨files, mirrors.standing.createDirectories_present admits.toAdmits present,
      fun _ _ stands => stands, present, fun _ _ => rfl⟩
  · refine ⟨_, mirrors.standing.createDirectories_vacant admits.toAdmits vacant,
      extends_insert vacant .directory, ?_, fun place other => ?_⟩
    · rw [entry?_insert, if_pos rfl]
    · rw [entry?_insert, if_neg other]

/-- Nothing stands in the file of an identifier that is not kept. -/
theorem Mirrors.unfiled (mirrors : Mirrors stem root memory files)
    (absent : memory.contains id = false) :
    files.entry? (id.loosePath.2 :: id.loosePath.1 :: root) = none := by
  have kept := (mirrors.kept id).isSome
  rwa [← contains_iff, absent, Option.isSome_eq_false_iff, Option.isNone_iff_eq_none] at kept

/-- Nothing stands where a spare file is put. -/
theorem Mirrors.unspared (mirrors : Mirrors stem root memory files) (group : String)
    (draw : UInt32) : files.entry? (spareName draw :: group :: root) = none := by
  by_contra present
  obtain ⟨id, _, path⟩ := mirrors.only _ _ (Option.isSome_iff_ne_none.mpr present)
  exact spareName_ne id draw (congrArg Prod.snd path)

/-- A form that is new is put into its file through a spare one, which is gone then. -/
theorem Mirrors.insert_new (mirrors : Mirrors stem root memory files)
    (site : Site directory stem) (absent : memory.contains id = false) (form : Bytes)
    (draw : UInt32) (pack : Bytes → Bytes) :
    ∃ written, LooseStore.insert directory files id form draw pack = (.ok (), written) ∧
      Adds id root (.file (pack form)) files written := by
  have admits := site.admits id
  have admitsSpare := site.admits_spare id draw
  obtain ⟨made, created, extended, present, others⟩ := mirrors.group_made site id
  have vacant : made.entry? (id.loosePath.2 :: id.loosePath.1 :: root) = none := by
    rw [others _ (by simp), mirrors.unfiled absent]
  have vacantSpare : made.entry? (spareName draw :: id.loosePath.1 :: root) = none := by
    rw [others _ (by simp), mirrors.unspared]
  have standing := mirrors.standing.extend extended
  have targeted := standing.filePlace admits present (by simp [vacant])
  have opened := standing.filePlace admitsSpare present (by simp [vacantSpare])
  obtain ⟨written, placed⟩ := placeFile_ok opened targeted (pack form)
  have outcome := placed_placeFile made
    (Path.below stem (id.loosePath.1 ++ "/" ++ spareName draw))
    (Path.below stem (id.loosePath.1 ++ "/" ++ id.loosePath.2)) (pack form)
  rw [placed] at outcome
  have unheld : files.has (fileOf directory id) = false := by rw [mirrors.has site, absent]
  cases outcome with
  | moved spare target _ there reached entries =>
    obtain rfl := Except.ok.inj (opened.symm.trans there)
    obtain rfl := Except.ok.inj (targeted.symm.trans reached)
    have kept (place : Location) (notFile : place ≠ id.loosePath.2 :: id.loosePath.1 :: root) :
        written.entry? place = made.entry? place := by
      rw [entries, if_neg notFile]
      split
      · rename_i same
        rw [same, vacantSpare]
      · rfl
    refine ⟨written, ?_, fun place entry stands => ?_, ?_, ?_, fun place notFile notGroup => ?_⟩
    · rw [LooseStore.insert, unheld, if_neg (by decide), site.fileOf,
        Path.parent?_below stem admits.isGroup admits.isName, Option.getD_some]
      simp only
      rw [created]
      simp only
      rw [Path.join_below stem admits.isGroup admitsSpare.isName.relative, placed]
    · have stays := extended place entry stands
      rw [kept place (fun same => ?_), stays]
      rw [same, vacant] at stays
      cases stays
    · rw [entries, if_pos rfl]
    · rw [kept _ (by simp), present]
    · rw [kept place notFile, others place notGroup]

/-- What is kept in memory besides is what was kept there, and the new identifier. -/
theorem contains_insert (memory : MemoryStore) (id other : ObjectId) (form : Bytes) :
    (memory.insert id form).contains other = true ↔ other = id ∨ memory.contains other = true := by
  rw [contains_iff, getElem?_memory]
  split
  · rename_i new
    simp [new.1]
  · rename_i old
    rw [← contains_iff]
    by_cases same : other = id
    · subst same
      have held : memory.contains other = true := by simpa using old
      simp [held]
    · simp [same]

/-- Files to which a new form was added mirror the memory that keeps it. -/
theorem Mirrors.added (mirrors : Mirrors stem root memory files) {written : FileSystem}
    (absent : memory.contains id = false) (unpacked : Zlib.unpack? bytes = some form)
    (adds : Adds id root (.file bytes) files written) :
    Mirrors stem root (memory.insert id form) written where
  standing := mirrors.standing.extend adds.extended
  grouped other stored := by
    rcases (contains_insert memory id other form).mp stored with rfl | held
    · exact adds.group
    · exact adds.extended _ _ (mirrors.grouped other held)
  vacant group free := by
    have new : id.loosePath.1 ≠ group :=
      free id ((contains_insert memory id id form).mpr (.inl rfl))
    rw [adds.others _ (by simp) (by simp [Ne.symm new])]
    exact mirrors.vacant group fun other held =>
      free other ((contains_insert memory id other form).mpr (.inr held))
  kept other := by
    rw [getElem?_memory]
    by_cases same : id = other
    · subst same
      rw [if_pos ⟨rfl, absent⟩, adds.file]
      exact .packed unpacked
    · have elsewhere : other.loosePath.2 :: other.loosePath.1 :: root ≠
          id.loosePath.2 :: id.loosePath.1 :: root := by
        intro place
        simp only [List.cons.injEq, and_true] at place
        exact same (ObjectId.loosePath_injective (Prod.ext place.2.symm place.1.symm))
      rw [if_neg (by simp [same]), adds.others _ elsewhere (by simp)]
      exact mirrors.kept other
  only name group present := by
    by_cases new : name :: group :: root = id.loosePath.2 :: id.loosePath.1 :: root
    · simp only [List.cons.injEq, and_true] at new
      exact ⟨id, (contains_insert memory id id form).mpr (.inl rfl),
        Prod.ext new.2.symm new.1.symm⟩
    · rw [adds.others _ new (by simp)] at present
      obtain ⟨other, held, path⟩ := mirrors.only name group present
      exact ⟨other, (contains_insert memory id other form).mpr (.inr held), path⟩

/-- Files into which a group and a file were put mirror the memory that keeps the form. -/
theorem Mirrors.put (mirrors : Mirrors stem root memory files)
    (absent : memory.contains id = false) (unpacked : Zlib.unpack? bytes = some form) :
    Mirrors stem root (memory.insert id form)
      ((files.insert (id.loosePath.1 :: root) .directory).insert
        (id.loosePath.2 :: id.loosePath.1 :: root) (.file bytes)) := by
  have group : Extends files (files.insert (id.loosePath.1 :: root) .directory) := by
    intro place entry stands
    rw [entry?_insert]
    split
    · rename_i same
      subst same
      rcases mirrors.group_cases id.loosePath.1 with ⟨_, present⟩ | ⟨_, vacant⟩
      · rw [← stands, present]
      · rw [vacant] at stands
        cases stands
    · exact stands
  have unfiled : FileSystem.entry? (files.insert (id.loosePath.1 :: root) .directory)
      (id.loosePath.2 :: id.loosePath.1 :: root) = none := by
    rw [entry?_insert, if_neg (by simp), mirrors.unfiled absent]
  have file := extends_insert unfiled (.file bytes)
  refine mirrors.added absent unpacked ⟨fun place entry stands =>
    file place entry (group place entry stands), ?_, ?_, fun place notFile notGroup => ?_⟩
  · rw [entry?_insert, if_pos rfl]
  · rw [entry?_insert, if_neg (by simp), entry?_insert, if_pos rfl]
  · rw [entry?_insert, if_neg notFile, entry?_insert, if_neg notGroup]

/-- A memory that holds the same is mirrored by the same files. -/
theorem Mirrors.congr (mirrors : Mirrors stem root memory files) {other : MemoryStore}
    (same : ∀ id : ObjectId, other.forms[id]? = memory.forms[id]?) :
    Mirrors stem root other files := by
  have contained (id : ObjectId) : other.contains id = memory.contains id := by
    rw [contains_iff, contains_iff, same]
  refine ⟨mirrors.standing, fun id held => mirrors.grouped id (contained id ▸ held),
    fun group free => mirrors.vacant group fun id held => free id ((contained id).trans held),
    fun id => (same id).symm ▸ mirrors.kept id, fun name group present => ?_⟩
  obtain ⟨id, held, path⟩ := mirrors.only name group present
  exact ⟨id, (contained id).trans held, path⟩

/-- Files and memory hold the same after a form was kept in both, whatever packs it. -/
theorem Mirrors.insert (mirrors : Mirrors stem root memory files) (site : Site directory stem)
    (packs : Zlib.Packs pack) (id : ObjectId) (form : Bytes) (draw : UInt32) :
    ∃ written, LooseStore.insert directory files id form draw pack = (.ok (), written) ∧
      Mirrors stem root (memory.insert id form) written := by
  cases held : memory.contains id with
  | false =>
    obtain ⟨written, inserted, adds⟩ := mirrors.insert_new site held form draw pack
    exact ⟨written, inserted, mirrors.added held (packs form) adds⟩
  | true =>
    refine ⟨files, ?_, mirrors.congr fun other => ?_⟩
    · rw [LooseStore.insert, mirrors.has site, held]
      exact if_pos rfl
    · rw [getElem?_memory, if_neg (by simp [held])]

end LooseStore

end Ancestry
