import Ancestry.Changes
import Ancestry.Proofs.Identifiers
import Ancestry.Proofs.Trees.Names
import Mathlib.Logic.Relation

/-!
# Snapshots

A tree is a snapshot of files: along names from the outermost on one comes to a file, to
a directory or to nothing. Links to other repositories are nothing, and an unreadable
directory on the way is a fault. Trees are finitely nested where no directory comes back
below itself, and then they are nested no deeper than there are identifiers.
-/

namespace Ancestry

namespace Source

variable {source : Source} {tree old new : Option ObjectId} {id : ObjectId} {name : String}
  {names rest : List String}

/-- Entries of a directory; none stands for an empty one. -/
def children (source : Source) : Option ObjectId → Except Fault TreeEntries
  | none => .ok ∅
  | some id => source.entries id

/-- An entry that is neither a directory nor a link to another repository. -/
def file? (entry : Option TreeEntry) : Option TreeEntry :=
  entry.filter fun entry => !entry.mode.isTree && !entry.mode.isGitlink

/-- The identifier of the directory to which some names lead; none where there is no
directory. -/
def dirAt (source : Source) : Option ObjectId → List String → Except Fault (Option ObjectId)
  | tree, [] => .ok tree
  | tree, name :: rest =>
    match source.children tree with
    | .error fault => .error fault
    | .ok entries => source.dirAt (Changes.directoryId? entries[name]?) rest

/-- The entry of the file to which some names lead; none where there is no file. -/
def fileAt (source : Source) : Option ObjectId → List String → Except Fault (Option TreeEntry)
  | _, [] => .ok none
  | tree, name :: rest =>
    match source.children tree with
    | .error fault => .error fault
    | .ok entries =>
      match rest with
      | [] => .ok (file? entries[name]?)
      | next :: rest => source.fileAt (Changes.directoryId? entries[name]?) (next :: rest)

/-- No unreadable directory stands in the way of any file. -/
def Readable (source : Source) (tree : Option ObjectId) : Prop :=
  ∀ names, ∃ file, source.fileAt tree names = .ok file

/-- Names that lead below a directory that is the same on both sides. -/
def Shared (source : Source) (old new : Option ObjectId) (names : List String) : Prop :=
  ∃ above rest id, names = above ++ rest ∧ rest ≠ [] ∧
    source.dirAt old above = .ok (some id) ∧ source.dirAt new above = .ok (some id)

/-- Two snapshots cannot be compared, as a directory that is not the same on both sides
cannot be read. -/
def Blocked (source : Source) (old new : Option ObjectId) (fault : Fault) : Prop :=
  ∃ names before after id,
    source.dirAt old names = .ok before ∧ source.dirAt new names = .ok after ∧ before ≠ after ∧
      (before = some id ∨ after = some id) ∧ source.entries id = .error fault

/-- A tree that is finitely nested as far as it can be read, and whose entries have names
that make paths. -/
inductive Orderly (source : Source) : ObjectId → Prop where
  | unreadable {id : ObjectId} {fault : Fault} (failed : source.entries id = .error fault) :
      Orderly source id
  | tree {id : ObjectId} {entries : TreeEntries} (read : source.entries id = .ok entries)
      (named : ∀ name entry, entries[name]? = some entry → Path.IsName name)
      (below : ∀ (name : String) (entry : TreeEntry), entries[name]? = some entry →
        entry.mode.isTree = true → Orderly source entry.id) :
      Orderly source id

/-- A tree that is nested less than `most` deep, and whose entries have names that make
paths. -/
inductive OrderlyWithin (source : Source) : (most : Nat) → ObjectId → Prop where
  | unreadable {most : Nat} {id : ObjectId} {fault : Fault}
      (failed : source.entries id = .error fault) : OrderlyWithin source most id
  | tree {most : Nat} {id : ObjectId} {entries : TreeEntries}
      (read : source.entries id = .ok entries)
      (named : ∀ name entry, entries[name]? = some entry → Path.IsName name)
      (below : ∀ (name : String) (entry : TreeEntry), entries[name]? = some entry →
        entry.mode.isTree = true → OrderlyWithin source most entry.id) :
      OrderlyWithin source (most + 1) id

/-- One tree is a directory in another. -/
def Holds (source : Source) (above below : ObjectId) : Prop :=
  ∃ (entries : TreeEntries) (name : String) (entry : TreeEntry),
    source.entries above = .ok entries ∧ entries[name]? = some entry ∧
      entry.mode.isTree = true ∧ entry.id = below

/-- A finitely nested tree is not nested in itself. -/
theorem Orderly.proper (orderly : source.Orderly id) :
    ¬ Relation.TransGen source.Holds id id := by
  induction orderly with
  | @unreadable id fault failed =>
    intro loop
    obtain ⟨next, ⟨entries, _, _, read, _⟩, _⟩ := Relation.TransGen.head'_iff.mp loop
    rw [failed] at read
    cases read
  | @tree id entries read named below inductionHypothesis =>
    intro loop
    obtain ⟨next, ⟨others, name, entry, again, found, directory, rfl⟩, back⟩ :=
      Relation.TransGen.head'_iff.mp loop
    rw [read] at again
    obtain rfl := Except.ok.inj again
    have step : source.Holds id entry.id := ⟨entries, name, entry, read, found, directory, rfl⟩
    exact inductionHypothesis name entry found directory (Relation.TransGen.tail' back step)

/-- What is orderly within some steps is so within more. -/
theorem OrderlyWithin.mono {most more : Nat} (orderly : source.OrderlyWithin most id)
    (enough : most ≤ more) : source.OrderlyWithin more id := by
  induction orderly generalizing more with
  | unreadable failed => exact .unreadable failed
  | tree read named below inductionHypothesis =>
    obtain ⟨more, rfl⟩ : ∃ left, more = left + 1 := ⟨more - 1, by omega⟩
    exact .tree read named fun name entry found directory =>
      inductionHypothesis name entry found directory (by omega)

/-- A finitely nested tree is nested no deeper than there are identifiers that it is not
nested in itself. -/
theorem Orderly.within (orderly : source.Orderly id) (seen : ObjectId → Prop)
    (above : ∀ other, seen other → Relation.TransGen source.Holds other id) :
    source.OrderlyWithin (ObjectId.unmarked seen) id := by
  induction orderly generalizing seen with
  | unreadable failed => exact .unreadable failed
  | @tree id entries read named below inductionHypothesis =>
    have new : ¬ seen id := fun known => (Orderly.tree read named below).proper (above id known)
    let grown : ObjectId → Prop := fun other => seen other ∨ other = id
    have fewer : ObjectId.unmarked grown < ObjectId.unmarked seen :=
      ObjectId.unmarked_lt seen grown (fun _ => .inl) id new (.inr rfl)
    obtain ⟨left, same⟩ : ∃ left, ObjectId.unmarked seen = left + 1 :=
      ⟨ObjectId.unmarked seen - 1, by omega⟩
    rw [same]
    refine .tree read named fun name entry found directory => ?_
    have step : source.Holds id entry.id := ⟨entries, name, entry, read, found, directory, rfl⟩
    refine (inductionHypothesis name entry found directory grown fun other known => ?_).mono
      (by omega)
    rcases known with known | rfl
    · exact (above other known).tail step
    · exact .single step

/-- One bound on the depth does for every orderly tree: none lies in itself, so that the number of
identifiers bounds it. -/
theorem Orderly.within_total (orderly : source.Orderly id) :
    source.OrderlyWithin (2 * ObjectId.total) id := by
  have bound := ObjectId.unmarked_le_total fun _ => False
  exact (orderly.within (fun _ => False) fun _ => False.elim).mono (by omega)

/-- A directory below an entry is looked up in the tree of that entry. -/
theorem dirAt_cons {entries : TreeEntries} (read : source.children tree = .ok entries)
    (name : String) (rest : List String) :
    source.dirAt tree (name :: rest) =
      source.dirAt (Changes.directoryId? entries[name]?) rest := by
  rw [dirAt, read]

/-- A file of a tree is what the entry of its name says. -/
theorem fileAt_single {entries : TreeEntries} (read : source.children tree = .ok entries)
    (name : String) : source.fileAt tree [name] = .ok (file? entries[name]?) := by
  rw [fileAt, read]

/-- A file below an entry is looked up in the tree of that entry. -/
theorem fileAt_cons {entries : TreeEntries} (read : source.children tree = .ok entries)
    (name next : String) (rest : List String) :
    source.fileAt tree (name :: next :: rest) =
      source.fileAt (Changes.directoryId? entries[name]?) (next :: rest) := by
  rw [fileAt, read]

/-- Below a tree that cannot be read every file is met with the same fault. -/
theorem fileAt_stuck {fault : Fault} (failed : source.children tree = .error fault)
    (name : String) (rest : List String) : source.fileAt tree (name :: rest) = .error fault := by
  rw [fileAt, failed]

/-- There are no files in the empty tree. -/
theorem fileAt_none (names : List String) : source.fileAt none names = .ok none := by
  have read : source.children none = .ok ∅ := rfl
  induction names with
  | nil => rfl
  | cons name rest inductionHypothesis =>
    cases rest with
    | nil => rw [fileAt_single read]; rfl
    | cons next rest => exact (fileAt_cons read name next rest).trans inductionHypothesis

/-- What is found below a directory is found in it. -/
theorem fileAt_below {above : List String} {directory : Option ObjectId}
    (found : source.dirAt tree above = .ok directory) (some : rest ≠ []) :
    source.fileAt tree (above ++ rest) = source.fileAt directory rest := by
  induction above generalizing tree with
  | nil =>
    obtain rfl := Except.ok.inj found
    rfl
  | cons first above inductionHypothesis =>
    cases read : source.children tree with
    | error fault =>
      rw [dirAt, read] at found
      cases found
    | ok entries =>
      rw [dirAt_cons read] at found
      cases tail : above ++ rest with
      | nil => exact absurd (List.append_eq_nil_iff.mp tail).2 some
      | cons next others =>
        rw [List.cons_append, tail, fileAt_cons read, ← tail]
        exact inductionHypothesis found

/-- Two readable snapshots can be compared. -/
theorem Blocked.not_readable {fault : Fault} (blocked : source.Blocked old new fault)
    (oldReadable : source.Readable old) (newReadable : source.Readable new) : False := by
  obtain ⟨names, before, after, id, oldFound, newFound, _, side, failed⟩ := blocked
  have stuck : source.children (some id) = .error fault := failed
  rcases side with rfl | rfl
  · obtain ⟨file, known⟩ := oldReadable (names ++ ["x"])
    rw [fileAt_below oldFound (List.cons_ne_nil _ _), fileAt_stuck stuck] at known
    cases known
  · obtain ⟨file, known⟩ := newReadable (names ++ ["x"])
    rw [fileAt_below newFound (List.cons_ne_nil _ _), fileAt_stuck stuck] at known
    cases known

/-- Names that are shared in a directory are shared in what holds it. -/
theorem Shared.cons {olds news : TreeEntries} (oldRead : source.children old = .ok olds)
    (newRead : source.children new = .ok news)
    (shared : source.Shared (Changes.directoryId? olds[name]?) (Changes.directoryId? news[name]?)
      names) : source.Shared old new (name :: names) := by
  obtain ⟨above, rest, id, rfl, some, oldFound, newFound⟩ := shared
  exact ⟨name :: above, rest, id, rfl, some, (dirAt_cons oldRead name above).trans oldFound,
    (dirAt_cons newRead name above).trans newFound⟩

/-- A shared path has the same file on both sides, if any. -/
theorem Shared.fileAt (shared : source.Shared old new names) :
    source.fileAt old names = source.fileAt new names := by
  obtain ⟨above, rest, id, rfl, some, oldFound, newFound⟩ := shared
  rw [fileAt_below oldFound some, fileAt_below newFound some]

/-- What blocks two subdirectories of one name blocks the trees that they are in. -/
theorem Blocked.cons {olds news : TreeEntries} {fault : Fault}
    (oldRead : source.children old = .ok olds) (newRead : source.children new = .ok news)
    (blocked : source.Blocked (Changes.directoryId? olds[name]?) (Changes.directoryId? news[name]?)
      fault) : source.Blocked old new fault := by
  obtain ⟨names, before, after, id, oldFound, newFound, rest⟩ := blocked
  exact ⟨name :: names, before, after, id, (dirAt_cons oldRead name names).trans oldFound,
    (dirAt_cons newRead name names).trans newFound, rest⟩

end Source

namespace Changes

variable {source : Source} {old new : Option ObjectId} {names : List String}

/-- What happened at a path between two snapshots. What is below a directory that is the same
on both sides is the same. -/
def changeAt (source : Source) : (old new : Option ObjectId) → List String →
    Except Fault (Option Change)
  | _, _, [] => .ok none
  | old, new, name :: rest =>
    if old = new then .ok none
    else
      match source.children old with
      | .error fault => .error fault
      | .ok olds =>
        match source.children new with
        | .error fault => .error fault
        | .ok news =>
          match rest with
          | [] => .ok (Change.between? (Source.file? olds[name]?) (Source.file? news[name]?))
          | next :: rest =>
            changeAt source (directoryId? olds[name]?) (directoryId? news[name]?) (next :: rest)

/-- Where the same stands on both sides nothing happened. -/
theorem between?_same (file : Option TreeEntry) : Change.between? file file = none := by
  cases file <;> simp [Change.between?]

/-- Where nothing happened the same stands on both sides. -/
theorem eq_of_between? {before after : Option TreeEntry}
    (none : Change.between? before after = none) : before = after := by
  cases before <;> cases after <;> simp_all [Change.between?]

/-- Where both snapshots can be read along a path, what happened is told by the two files. -/
theorem changeAt_of_files {before after : Option TreeEntry}
    (oldFile : source.fileAt old names = .ok before)
    (newFile : source.fileAt new names = .ok after) :
    changeAt source old new names = .ok (Change.between? before after) := by
  induction names generalizing old new with
  | nil =>
    obtain rfl := Except.ok.inj oldFile
    obtain rfl := Except.ok.inj newFile
    rfl
  | cons name rest inductionHypothesis =>
    by_cases same : old = new
    · subst same
      rw [oldFile] at newFile
      obtain rfl := Except.ok.inj newFile
      rw [changeAt, if_pos rfl, between?_same]
    · cases oldRead : source.children old with
      | error fault =>
        rw [Source.fileAt_stuck oldRead] at oldFile
        cases oldFile
      | ok olds =>
        cases newRead : source.children new with
        | error fault =>
          rw [Source.fileAt_stuck newRead] at newFile
          cases newFile
        | ok news =>
          rw [changeAt, if_neg same, oldRead, newRead]
          cases rest with
          | nil =>
            rw [Source.fileAt_single oldRead] at oldFile
            rw [Source.fileAt_single newRead] at newFile
            obtain rfl := Except.ok.inj oldFile
            obtain rfl := Except.ok.inj newFile
            rfl
          | cons next rest =>
            rw [Source.fileAt_cons oldRead] at oldFile
            rw [Source.fileAt_cons newRead] at newFile
            exact inductionHypothesis oldFile newFile

/-- What happened is told by two files, or the path leads below a directory that is the same
on both sides. -/
theorem changeAt_cases {change : Option Change}
    (told : changeAt source old new names = .ok change) :
    (∃ before after, source.fileAt old names = .ok before ∧ source.fileAt new names = .ok after ∧
        change = Change.between? before after) ∨
      (source.Shared old new names ∧ change = none) := by
  induction names generalizing old new with
  | nil =>
    obtain rfl := Except.ok.inj told
    exact .inl ⟨none, none, rfl, rfl, rfl⟩
  | cons name rest inductionHypothesis =>
    rw [changeAt] at told
    by_cases same : old = new
    · subst same
      rw [if_pos rfl] at told
      obtain rfl := Except.ok.inj told
      cases old with
      | none =>
        have nothing : source.fileAt none (name :: rest) = .ok none := Source.fileAt_none _
        exact .inl ⟨none, none, nothing, nothing, rfl⟩
      | some id => exact .inr ⟨⟨[], name :: rest, id, rfl, List.cons_ne_nil _ _, rfl, rfl⟩, rfl⟩
    · rw [if_neg same] at told
      cases oldRead : source.children old with
      | error fault => simp [oldRead] at told
      | ok olds =>
        cases newRead : source.children new with
        | error fault => simp [oldRead, newRead] at told
        | ok news =>
          simp only [oldRead, newRead] at told
          cases rest with
          | nil =>
            obtain rfl := Except.ok.inj told
            exact .inl ⟨_, _, Source.fileAt_single oldRead name, Source.fileAt_single newRead name,
              rfl⟩
          | cons next rest =>
            rcases inductionHypothesis told with
              ⟨before, after, oldFile, newFile, rfl⟩ | ⟨shared, rfl⟩
            · exact .inl ⟨before, after, (Source.fileAt_cons oldRead name next rest).trans oldFile,
                (Source.fileAt_cons newRead name next rest).trans newFile, rfl⟩
            · exact .inr ⟨shared.cons oldRead newRead, rfl⟩

end Changes

end Ancestry
