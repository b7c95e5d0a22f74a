import Ancestry.Proofs.Trees.Overlays

/-!
# Where changes come from

An identifier that a change names is that of no object, or it stands in some tree as that of a
file. This is so for any two trees and for any source: names may be strange, and directories
missing.
-/

namespace Ancestry

/-- Some tree has an entry of the identifier that is neither a directory nor a link to another
repository. -/
def Source.NamesFile (source : Source) (id : ObjectId) : Prop :=
  ∃ (tree : ObjectId) (entries : TreeEntries) (name : String) (entry : TreeEntry),
    source.entries tree = .ok entries ∧ entries[name]? = some entry ∧
      entry.mode.isTree = false ∧ entry.mode.isGitlink = false ∧ entry.id = id

/-- The identifier is that of no object, or some tree names it as that of a file. -/
def Source.Knows (source : Source) (id : ObjectId) : Prop := id = .zero ∨ source.NamesFile id

/-- The identifiers before and after a change are known. -/
structure Change.Known (source : Source) (change : Change) : Prop where
  old : source.Knows change.oldId
  new : source.Knows change.newId

namespace Changes

variable {source : Source} {changes after : Changes} {path : Path} {compare : Comparison}
  {list : List (String × TreeEntry)} {other entries : TreeEntries}

/-- All identifiers in the changes are known. -/
def Known (source : Source) (changes : Changes) : Prop :=
  ∀ (parts : List Path.Part) (path : Path) (change : Change),
    changes.entries[parts]? = some (path, change) → change.Known source

/-- Without changes there is no identifier to know. -/
theorem known_empty (source : Source) : Known source {} := by
  intro parts path change found
  simp at found

/-- One more change of this kind, at whatever path. -/
theorem Known.insert (known : changes.Known source) {change : Change} (names : change.Known source)
    (path : Path) : (changes.insert path change).Known source := by
  intro parts written recorded found
  simp only [Changes.insert, Std.TreeMap.getElem?_insert] at found
  split at found
  · cases found
    exact names
  · exact known parts written recorded found

/-- A change that is inserted adds identifiers that are known, if any. -/
theorem Known.insert? (known : changes.Known source) {found : Option Change}
    (names : ∀ change, found = some change → change.Known source) (path : Path) :
    (changes.insert? path found).Known source := by
  cases found with
  | none => exact known
  | some change => exact known.insert (names change rfl) path

/-- What is listed was recorded. -/
theorem Known.listed (known : changes.Known source) {change : Change}
    (member : (path, change) ∈ changes.toList) : change.Known source := by
  rw [toList_eq, List.mem_map] at member
  obtain ⟨⟨parts, record⟩, member, rfl⟩ := member
  exact known parts path change (Std.TreeMap.mem_toList_iff_getElem?_eq_some.mp member)

/-- The identifier of an entry is known, if there is one and it is no directory. -/
def KnownLeaf (source : Source) (entry : Option TreeEntry) : Prop :=
  ∀ file, leaf? entry = some file → source.Knows file.id

/-- A change between two entries names their identifiers, or that of no object. -/
theorem between?_known {before after : Option TreeEntry} (old : KnownLeaf source before)
    (new : KnownLeaf source after) (change : Change)
    (found : Change.between? (leaf? before) (leaf? after) = some change) :
    change.Known source := by
  rcases first : leaf? before with _ | deleted <;> rcases second : leaf? after with _ | added <;>
    rw [first, second] at found
  · cases found
  · cases found
    exact ⟨.inl rfl, new added second⟩
  · cases found
    exact ⟨old deleted first, .inl rfl⟩
  · by_cases same : deleted = added
    · rw [Change.between?, if_pos same] at found
      cases found
    · rw [Change.between?, if_neg same] at found
      cases found
      exact ⟨old deleted first, new added second⟩

/-- A comparison after which all identifiers are known, if they were before. -/
def KeepsKnown (source : Source) (compare : Comparison) : Prop :=
  ∀ old new path changes after, Known source changes →
    compare old new path changes = .ok after → after.Known source

/-- The names of the old side. -/
theorem compareOld_known (below : KeepsKnown source compare)
    (others : ∀ name : String, KnownLeaf source other[name]?)
    (listed : ∀ name entry, (name, entry) ∈ list → KnownLeaf source (some entry)) (above : Path)
    (known : changes.Known source)
    (ran : compareOld compare other above list changes = .ok after) : after.Known source := by
  induction list generalizing changes with
  | nil =>
    cases ran
    exact known
  | cons head rest inductionHypothesis =>
    obtain ⟨name, entry⟩ := head
    have later : ∀ name entry, (name, entry) ∈ rest → KnownLeaf source (some entry) :=
      fun name entry member => listed name entry (List.mem_cons_of_mem _ member)
    by_cases same : other[name]? = some entry
    · rw [compareOld, if_pos same] at ran
      exact inductionHypothesis later known ran
    · rw [compareOld, if_neg same] at ran
      rcases compared : compare (directoryId? (some entry)) (directoryId? other[name]?)
        (above.join name) changes with fault | between
      · simp only [compared] at ran
        cases ran
      · simp only [compared] at ran
        refine inductionHypothesis later ?_ ran
        refine (below _ _ _ _ _ known compared).insert? ?_ (above.join name)
        exact between?_known (listed name entry List.mem_cons_self) (others name)

/-- The names that only the new side has. -/
theorem compareNew_known (below : KeepsKnown source compare)
    (listed : ∀ name entry, (name, entry) ∈ list → KnownLeaf source (some entry)) (above : Path)
    (known : changes.Known source)
    (ran : compareNew compare other above list changes = .ok after) : after.Known source := by
  induction list generalizing changes with
  | nil =>
    cases ran
    exact known
  | cons head rest inductionHypothesis =>
    obtain ⟨name, entry⟩ := head
    have later : ∀ name entry, (name, entry) ∈ rest → KnownLeaf source (some entry) :=
      fun name entry member => listed name entry (List.mem_cons_of_mem _ member)
    by_cases old : other.contains name = true
    · rw [compareNew, if_pos old] at ran
      exact inductionHypothesis later known ran
    · rw [compareNew, if_neg old] at ran
      rcases compared : compare none (directoryId? (some entry)) (above.join name) changes with
        fault | between
      · simp only [compared] at ran
        cases ran
      · simp only [compared] at ran
        have nothing : KnownLeaf source none := nofun
        refine inductionHypothesis later ?_ ran
        refine (below _ _ _ _ _ known compared).insert? ?_ (above.join name)
        exact between?_known nothing (listed name entry List.mem_cons_self)

/-- What is listed of a tree and is no directory is a file. -/
theorem listing_known {tree : Option ObjectId} (read : listing source tree = .ok entries)
    (name : String) : KnownLeaf source entries[name]? := by
  intro file found
  obtain ⟨kept, plain⟩ := Option.filter_eq_some_iff.mp found
  cases tree with
  | none =>
    cases read
    simp at kept
  | some tree =>
    rcases opened : source.entries tree with fault | whole
    · rw [listing, opened] at read
      cases read
    · rw [listing, opened] at read
      cases read
      rw [Std.TreeMap.getElem?_filter, Option.pfilter_eq_filter] at kept
      obtain ⟨present, unlinked⟩ := Option.filter_eq_some_iff.mp kept
      exact .inr ⟨tree, whole, name, file, opened, present, by simpa using plain,
        by simpa using unlinked, rfl⟩

/-- So are the entries that are gone through. -/
theorem listing_listed {tree : Option ObjectId} (read : listing source tree = .ok entries)
    (name : String) (entry : TreeEntry) (member : (name, entry) ∈ entries.toList) :
    KnownLeaf source (some entry) := by
  rw [← Std.TreeMap.mem_toList_iff_getElem?_eq_some.mp member]
  exact listing_known read name

/-- A comparison that succeeds records nothing, or it goes through the names of both sides. -/
theorem of_compareWithin {most : Nat} {old new : Option ObjectId}
    (ran : compareWithin source most old new path changes = .ok after) :
    after = changes ∨ ∃ less olds news between, most = less + 1 ∧
      listing source old = .ok olds ∧ listing source new = .ok news ∧
      compareOld (compareWithin source less) news path olds.toList changes = .ok between ∧
      compareNew (compareWithin source less) olds path news.toList between = .ok after := by
  rw [compareWithin] at ran
  split at ran
  · exact .inl (Except.ok.inj ran).symm
  rcases first : listing source old with fault | olds
  · simp only [first] at ran
    cases ran
  rcases second : listing source new with fault | news
  · simp only [first, second] at ran
    cases ran
  simp only [first, second] at ran
  cases most with
  | zero => exact .inl (Except.ok.inj ran).symm
  | succ less =>
    rcases compared : compareOld (compareWithin source less) news path olds.toList changes with
      fault | between
    · simp only [compared] at ran
      cases ran
    · simp only [compared] at ran
      exact .inr ⟨less, olds, news, between, rfl, rfl, rfl, compared, ran⟩

/-- The comparison of two directories, however deep they are. -/
theorem compareWithin_known (source : Source) (most : Nat) :
    KeepsKnown source (compareWithin source most) := by
  induction most with
  | zero =>
    intro old new path changes after known ran
    obtain rfl | ⟨less, _, _, _, impossible, _⟩ := of_compareWithin ran
    · exact known
    · cases impossible
  | succ most inductionHypothesis =>
    intro old new path changes after known ran
    obtain rfl | ⟨less, olds, news, between, same, first, second, ranOld, ranNew⟩ :=
      of_compareWithin ran
    · exact known
    · obtain rfl := Nat.succ.inj same
      have middle := compareOld_known inductionHypothesis (listing_known second)
        (listing_listed first) path known ranOld
      exact compareNew_known inductionHypothesis (listing_listed second) path middle ranNew

/-- All changes between two trees name known identifiers. -/
theorem between_known {old : Option ObjectId} {new : ObjectId} {found : List (Path × Change)}
    (compared : between source old new = .ok found) :
    ∀ pair ∈ found, pair.2.Known source := by
  rintro ⟨path, change⟩ member
  rw [between] at compared
  rcases ran : compareWithin source (2 * ObjectId.total) old (some new) ⟨""⟩ {} with
    fault | changes
  · rw [ran] at compared
    cases compared
  · rw [ran] at compared
    cases compared
    exact (compareWithin_known source _ _ _ _ _ _ (known_empty source) ran).listed member

end Changes

end Ancestry
