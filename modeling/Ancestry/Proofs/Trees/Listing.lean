import Ancestry.Proofs.History
import Ancestry.Proofs.Trees.Comparing

/-!
# Changes are the differences of listings

Where every directory of two trees can be read, the changes between them are exactly the
paths at which their files differ: a file that is on one side only, or files of which
identifier or mode differ.
-/

namespace Ancestry

namespace Source

variable {source : Source} {tree : Option ObjectId}

/-- A tree is readable where its entries and all directories among them are. -/
theorem readable_of_children {entries : TreeEntries} (read : source.children tree = .ok entries)
    (below : ∀ name : String, source.Readable (Changes.directoryId? entries[name]?)) :
    source.Readable tree := by
  intro names
  cases names with
  | nil => exact ⟨none, rfl⟩
  | cons name rest =>
    cases rest with
    | nil => exact ⟨_, fileAt_single read name⟩
    | cons next rest =>
      obtain ⟨file, found⟩ := below name (next :: rest)
      exact ⟨file, (fileAt_cons read name next rest).trans found⟩

/-- Nothing of the empty tree is unreadable. -/
theorem readable_none : source.Readable none := fun names => ⟨none, fileAt_none names⟩

/-- A source of some objects. -/
def storing (objects : List (ObjectId × Object)) : Source where
  read id :=
    match objects.lookup id with
    | some object => .ok object
    | none => .error (.objectMissing id)

/-- The object of a tree with some entries. -/
def treeObject (entries : List (String × TreeEntry)) : Object :=
  ⟨.tree, entries.flatMap fun (name, entry) => Tree.entryBytes name entry⟩

/-- Entries that evaluation finds. -/
theorem entries_of_list {id : ObjectId} {list : List (String × TreeEntry)}
    (read : (source.entries id).toOption.map (·.toList) = some list) :
    ∃ entries, source.entries id = .ok entries ∧
      ∀ (name : String) (entry : TreeEntry),
        entries[name]? = some entry ↔ (name, entry) ∈ list := by
  rcases found : source.entries id with fault | entries
  · simp [found, Except.toOption] at read
  · refine ⟨entries, rfl, fun name entry => ?_⟩
    have same : entries.toList = list := by simpa [found, Except.toOption] using read
    rw [← same]
    exact Std.TreeMap.mem_toList_iff_getElem?_eq_some.symm

/-- A tree of which evaluation finds the entries is orderly where its directories are. -/
theorem orderly_of_list {id : ObjectId} {list : List (String × TreeEntry)}
    (read : (source.entries id).toOption.map (·.toList) = some list)
    (named : ∀ pair ∈ list, Path.IsName pair.1)
    (below : ∀ pair ∈ list, pair.2.mode.isTree = true → source.Orderly pair.2.id) :
    source.Orderly id := by
  obtain ⟨entries, known, found⟩ := entries_of_list read
  refine .tree known (fun name entry present => ?_) fun name entry present => ?_
  · exact named (name, entry) ((found name entry).mp present)
  · exact below (name, entry) ((found name entry).mp present)

/-- A tree of which evaluation finds the entries is readable where its directories are. -/
theorem readable_of_list {id : ObjectId} {list : List (String × TreeEntry)}
    (read : (source.entries id).toOption.map (·.toList) = some list)
    (below : ∀ pair ∈ list, pair.2.mode.isTree = true → source.Readable (some pair.2.id)) :
    source.Readable (some id) := by
  obtain ⟨entries, known, found⟩ := entries_of_list read
  have children : source.children (some id) = .ok entries := known
  refine readable_of_children children fun name => ?_
  cases directory : Changes.directoryId? entries[name]? with
  | none => exact readable_none
  | some inner =>
    obtain ⟨entry, kept, rfl⟩ := Option.map_eq_some_iff.mp directory
    obtain ⟨present, isTree⟩ := Option.filter_eq_some_iff.mp kept
    exact below (name, entry) ((found name entry).mp present) isTree

end Source

namespace Changes

variable {source : Source} {old : Option ObjectId} {new : ObjectId}

/-- How a difference between two files at one path is reported: by a letter and the identifiers
before and after. -/
inductive Reported : (before after : Option TreeEntry) → Char → ObjectId → ObjectId → Prop where
  | added (new : TreeEntry) : Reported none (some new) 'A' .zero new.id
  | deleted (old : TreeEntry) : Reported (some old) none 'D' old.id .zero
  | modified (old new : TreeEntry) (differ : old ≠ new) :
      Reported (some old) (some new) 'M' old.id new.id

/-- A change between two files is reported as what it is. -/
theorem reported_iff (before after : Option TreeEntry) (letter : Char) (oldId newId : ObjectId) :
    Reported before after letter oldId newId ↔
      ∃ change, Change.between? before after = some change ∧ change.letter = letter ∧
        change.oldId = oldId ∧ change.newId = newId := by
  constructor
  · intro reported
    cases reported with
    | added new => exact ⟨.added new, rfl, rfl, rfl, rfl⟩
    | deleted old => exact ⟨.deleted old, rfl, rfl, rfl, rfl⟩
    | modified old new differ => exact ⟨.modified old new, if_neg differ, rfl, rfl, rfl⟩
  · rintro ⟨change, happened, rfl, rfl, rfl⟩
    cases before with
    | none =>
      cases after with
      | none => cases happened
      | some new =>
        obtain rfl := Option.some.inj happened
        exact .added new
    | some old =>
      cases after with
      | none =>
        obtain rfl := Option.some.inj happened
        exact .deleted old
      | some new =>
        by_cases same : old = new
        · rw [same, between?_same] at happened
          cases happened
        · rw [Change.between?, if_neg same] at happened
          obtain rfl := Option.some.inj happened
          exact .modified old new same

/-- Two trees that can be read throughout are compared. Listed are exactly the paths at which
their files differ, each once and in the order of the paths.

Proof: the comparison lists what happened at each path, by induction on the depth of the trees; and
what happened at a path is what the two files there say. -/
theorem between_lists (oldOrderly : ∀ id, old = some id → source.Orderly id)
    (newOrderly : source.Orderly new) (oldReadable : source.Readable old)
    (newReadable : source.Readable (some new)) :
    ∃ changes, Changes.between source old new = .ok changes ∧
      (changes.Pairwise fun earlier later => compare earlier.1.parts later.1.parts = .lt) ∧
      ∀ path letter oldId newId,
        (∃ change, (path, change) ∈ changes ∧ change.letter = letter ∧ change.oldId = oldId ∧
          change.newId = newId) ↔
        ∃ names before after, path = Path.ofNames names ∧
          source.fileAt old names = .ok before ∧ source.fileAt (some new) names = .ok after ∧
          Reported before after letter oldId newId := by
  rcases between_tells oldOrderly newOrderly with
    ⟨changes, compared, _, ordered, listed⟩ | ⟨fault, _, blocked⟩
  · refine ⟨changes, compared, ordered, fun path letter oldId newId => ⟨?_, ?_⟩⟩
    · rintro ⟨change, member, told⟩
      obtain ⟨names, rfl, happened⟩ := (listed path change).mp member
      obtain ⟨before, oldFile⟩ := oldReadable names
      obtain ⟨after, newFile⟩ := newReadable names
      rw [changeAt_of_files oldFile newFile] at happened
      exact ⟨names, before, after, rfl, oldFile, newFile,
        (reported_iff _ _ _ _ _).mpr ⟨change, Except.ok.inj happened, told⟩⟩
    · rintro ⟨names, before, after, rfl, oldFile, newFile, reported⟩
      obtain ⟨change, happened, told⟩ := (reported_iff _ _ _ _ _).mp reported
      have at_names := changeAt_of_files oldFile newFile
      rw [happened] at at_names
      exact ⟨change, (listed _ change).mpr ⟨names, rfl, at_names⟩, told⟩
  · exact (blocked.not_readable oldReadable newReadable).elim

/-- A tree in which a directory holds a file, and one in which a file has the name of the
directory. -/
def swapped : Source :=
  .storing [(.uniform 1, Source.treeObject [("d", ⟨.uniform 2, .directory⟩)]),
    (.uniform 2, Source.treeObject [("f", ⟨.uniform 8, .regular⟩)]),
    (.uniform 3, Source.treeObject [("d", ⟨.uniform 9, .regular⟩)])]

/-- The tree in which a directory stands. -/
theorem swapped_outer : (swapped.entries (.uniform 1)).toOption.map (·.toList) =
    some [("d", ⟨.uniform 2, .directory⟩)] := by
  decide +kernel

/-- The tree of that directory, in which a file stands. -/
theorem swapped_inner : (swapped.entries (.uniform 2)).toOption.map (·.toList) =
    some [("f", ⟨.uniform 8, .regular⟩)] := by
  decide +kernel

/-- The tree in which a file stands in the directory's place. -/
theorem swapped_file : (swapped.entries (.uniform 3)).toOption.map (·.toList) =
    some [("d", ⟨.uniform 9, .regular⟩)] := by
  decide +kernel

/-- Where a file takes the place of a directory, the file is added at the path and what the
directory held is deleted below it. -/
theorem between_lists_swapped :
    ∃ changes, Changes.between swapped (some (.uniform 1)) (.uniform 3) = .ok changes ∧
      (changes.Pairwise fun earlier later => compare earlier.1.parts later.1.parts = .lt) ∧
      (∃ change, (⟨"d"⟩, change) ∈ changes ∧ change.letter = 'A' ∧ change.oldId = .zero ∧
        change.newId = .uniform 9) ∧
      ∃ change, (⟨"d/f"⟩, change) ∈ changes ∧ change.letter = 'D' ∧ change.oldId = .uniform 8 ∧
        change.newId = .zero := by
  have inner : swapped.Orderly (.uniform 2) := Source.orderly_of_list swapped_inner
    (by simpa using ⟨by decide, by decide, by decide, by decide⟩) (by simp [EntryMode.isTree])
  have innerRead : swapped.Readable (some (.uniform 2)) :=
    Source.readable_of_list swapped_inner (by simp [EntryMode.isTree])
  have outer : swapped.Orderly (.uniform 1) := Source.orderly_of_list swapped_outer
    (by simpa using ⟨by decide, by decide, by decide, by decide⟩) (by simpa using fun _ => inner)
  have outerRead : swapped.Readable (some (.uniform 1)) :=
    Source.readable_of_list swapped_outer (by simpa using fun _ => innerRead)
  have file : swapped.Orderly (.uniform 3) := Source.orderly_of_list swapped_file
    (by simpa using ⟨by decide, by decide, by decide, by decide⟩) (by simp [EntryMode.isTree])
  have fileRead : swapped.Readable (some (.uniform 3)) :=
    Source.readable_of_list swapped_file (by simp [EntryMode.isTree])
  have outerSide : ∀ id, some (ObjectId.uniform 1) = some id → swapped.Orderly id :=
    fun id same => Option.some.inj same ▸ outer
  obtain ⟨changes, compared, ordered, listed⟩ := between_lists outerSide file outerRead fileRead
  refine ⟨changes, compared, ordered, (listed _ _ _ _).mpr ?_, (listed _ _ _ _).mpr ?_⟩
  · exact ⟨["d"], none, some ⟨.uniform 9, .regular⟩, by decide, ok_of_toOption (by decide +kernel),
      ok_of_toOption (by decide +kernel), .added _⟩
  · exact ⟨["d", "f"], some ⟨.uniform 8, .regular⟩, none, by decide,
      ok_of_toOption (by decide +kernel), ok_of_toOption (by decide +kernel), .deleted _⟩

end Changes

end Ancestry
