import Ancestry.Pickaxe
import Ancestry.Proofs.Trees.Listing

/-!
# What a commit does to numbers of occurrences

A commit touches a needle exactly where some path holds it a different number of times in
the commit's snapshot and in that of a parent, or in the empty one for a root commit. The
search looks only at changed paths, and only as far as the first difference, but it says
what a comparison of all paths would say. It fails only where something cannot be read that
such a comparison needs.
-/

namespace Ancestry.Pickaxe

variable {source : Source} {needle : Needle} {old new : Option ObjectId} {names : List String}

/-- The number of occurrences in a file; an absent one holds none. -/
def fileCount (source : Source) (needle : Needle) : Option TreeEntry → Except Fault Nat
  | none => .ok 0
  | some entry => (source.payload entry.id).map needle.count

/-- The number of occurrences in the file to which some names lead. -/
def countAt (source : Source) (needle : Needle) (tree : Option ObjectId) (names : List String) :
    Except Fault Nat :=
  match source.fileAt tree names with
  | .error fault => .error fault
  | .ok file => fileCount source needle file

/-- The numbers of occurrences on both sides are known, and they differ. -/
def Differs (source : Source) (needle : Needle) (old new : Option ObjectId)
    (names : List String) : Prop :=
  ∃ before after, countAt source needle old names = .ok before ∧
    countAt source needle new names = .ok after ∧ before ≠ after

/-- The numbers of occurrences on both sides are known to be the same: by counting, as one file
stands on both sides, or as the path leads below a directory that does. -/
inductive Unchanged (source : Source) (needle : Needle) (old new : Option ObjectId)
    (names : List String) : Prop where
  | counted {count : Nat} (before : countAt source needle old names = .ok count)
      (after : countAt source needle new names = .ok count) : Unchanged source needle old new names
  | same {entry : TreeEntry} (before : source.fileAt old names = .ok (some entry))
      (after : source.fileAt new names = .ok (some entry)) : Unchanged source needle old new names
  | shared (shared : source.Shared old new names) : Unchanged source needle old new names

/-- What is unchanged does not differ. -/
theorem Unchanged.not_differs (unchanged : Unchanged source needle old new names) :
    ¬ Differs source needle old new names := by
  rintro ⟨before, after, oldCount, newCount, differ⟩
  have same : countAt source needle old names = countAt source needle new names := by
    cases unchanged with
    | counted first second => rw [first, second]
    | same first second => rw [countAt, countAt, first, second]
    | shared shared => rw [countAt, countAt, shared.fileAt]
  rw [oldCount, newCount] at same
  exact differ (Except.ok.inj same)

/-- A file that differs between two snapshots cannot be read. -/
def Withheld (source : Source) (old new : Option ObjectId) (fault : Fault) : Prop :=
  ∃ names before after entry, source.fileAt old names = .ok before ∧
    source.fileAt new names = .ok after ∧ before ≠ after ∧
    (before = some entry ∨ after = some entry) ∧ source.payload entry.id = .error fault

/-- The snapshots with which that of a commit is compared: those of its parents, or the empty
one for a root commit. -/
inductive Base (source : Source) (node : Node) : Option ObjectId → Prop where
  | root (isRoot : node.parents = []) : Base source node none
  | parent {id : ObjectId} {other : Node} (member : id ∈ node.parents)
      (resolved : source.node id = .ok other) : Base source node (some other.tree)

/-- Something that the comparison of a commit with its parents needs cannot be read. -/
inductive Lacks (source : Source) (node : Node) (fault : Fault) : Prop where
  | parent {id : ObjectId} (member : id ∈ node.parents) (failed : source.node id = .error fault) :
      Lacks source node fault
  | directory {base : Option ObjectId} (compared : Base source node base)
      (blocked : source.Blocked base (some node.tree) fault) : Lacks source node fault
  | file {base : Option ObjectId} (compared : Base source node base)
      (withheld : Withheld source base (some node.tree) fault) : Lacks source node fault

/-- The identifiers of a change are counted as the files that it changes. -/
theorem occurrences_change {before after : Option TreeEntry} {change : Change}
    (happened : Change.between? before after = some change)
    (oldGenuine : ∀ entry, before = some entry → entry.id ≠ .zero)
    (newGenuine : ∀ entry, after = some entry → entry.id ≠ .zero) :
    occurrences source needle change.oldId = fileCount source needle before ∧
      occurrences source needle change.newId = fileCount source needle after := by
  have absent : occurrences source needle .zero = .ok 0 := by simp [occurrences, ObjectId.isZero]
  have present : ∀ entry : TreeEntry, entry.id ≠ .zero →
      occurrences source needle entry.id = fileCount source needle (some entry) := by
    intro entry genuine
    simp [occurrences, ObjectId.isZero, genuine, fileCount]
  obtain ⟨letter, told⟩ :
      ∃ letter, Changes.Reported before after letter change.oldId change.newId :=
    ⟨change.letter, (Changes.reported_iff _ _ _ _ _).mpr ⟨change, happened, rfl, rfl, rfl⟩⟩
  generalize change.oldId = oldId at told ⊢
  generalize change.newId = newId at told ⊢
  cases told with
  | added new => exact ⟨absent, present new (newGenuine new rfl)⟩
  | deleted old => exact ⟨present old (oldGenuine old rfl), absent⟩
  | modified old new differ =>
    exact ⟨present old (oldGenuine old rfl), present new (newGenuine new rfl)⟩

/-- What the search among changes comes to. -/
inductive Searched (source : Source) (needle : Needle) (changes : List (Path × Change)) :
    Except Fault Bool → Prop where
  | differs {path : Path} {change : Change} {before after : Nat}
      (member : (path, change) ∈ changes)
      (oldCount : occurrences source needle change.oldId = .ok before)
      (newCount : occurrences source needle change.newId = .ok after) (differ : before ≠ after) :
      Searched source needle changes (.ok true)
  | equal (all : ∀ path change, (path, change) ∈ changes → ∃ count,
        occurrences source needle change.oldId = .ok count ∧
        occurrences source needle change.newId = .ok count) :
      Searched source needle changes (.ok false)
  | failed {path : Path} {change : Change} {fault : Fault} (member : (path, change) ∈ changes)
      (failed : occurrences source needle change.oldId = .error fault ∨
        occurrences source needle change.newId = .error fault) :
      Searched source needle changes (.error fault)

/-- The search goes through the changes up to the first that differs or fails, by induction on
them. -/
theorem anyDiffers_searched (source : Source) (needle : Needle) (changes : List (Path × Change)) :
    Searched source needle changes (anyDiffers source needle changes) := by
  induction changes with
  | nil => exact .equal fun _ _ member => absurd member List.not_mem_nil
  | cons first rest inductionHypothesis =>
    obtain ⟨path, change⟩ := first
    rw [anyDiffers]
    cases oldCount : occurrences source needle change.oldId with
    | error fault => exact .failed List.mem_cons_self (.inl oldCount)
    | ok before =>
      cases newCount : occurrences source needle change.newId with
      | error fault => exact .failed List.mem_cons_self (.inr newCount)
      | ok after =>
        by_cases same : before = after
        · subst same
          simp only [if_true]
          generalize anyDiffers source needle rest = result at inductionHypothesis ⊢
          cases inductionHypothesis with
          | differs member oldKnown newKnown differ =>
            exact .differs (List.mem_cons_of_mem _ member) oldKnown newKnown differ
          | failed member failed => exact .failed (List.mem_cons_of_mem _ member) failed
          | equal all =>
            refine .equal fun other found member => ?_
            rcases List.mem_cons.mp member with same | member
            · obtain ⟨rfl, rfl⟩ := Prod.mk.inj same
              exact ⟨before, oldCount, newCount⟩
            · exact all other found member
        · simp only [if_neg same]
          exact .differs List.mem_cons_self oldCount newCount same

/-- What the comparison of two snapshots comes to. -/
inductive Compares (source : Source) (needle : Needle) (old new : Option ObjectId) :
    Except Fault Bool → Prop where
  | differs (names : List String) (differs : Differs source needle old new names) :
      Compares source needle old new (.ok true)
  | unchanged (all : ∀ names, Unchanged source needle old new names) :
      Compares source needle old new (.ok false)
  | blocked {fault : Fault} (blocked : source.Blocked old new fault) :
      Compares source needle old new (.error fault)
  | withheld {fault : Fault} (withheld : Withheld source old new fault) :
      Compares source needle old new (.error fault)

/-- No file of a snapshot stands for an absent object. -/
def Genuine (source : Source) (tree : Option ObjectId) : Prop :=
  ∀ names entry, source.fileAt tree names = .ok (some entry) → entry.id ≠ .zero

/-- What happened at a path is a difference between two files, which are counted by the
identifiers of the change. -/
theorem files_of_change (needle : Needle) {change : Change} (oldGenuine : Genuine source old)
    (newGenuine : Genuine source new)
    (happened : Changes.changeAt source old new names = .ok (some change)) :
    ∃ before after, source.fileAt old names = .ok before ∧ source.fileAt new names = .ok after ∧
      before ≠ after ∧
      occurrences source needle change.oldId = fileCount source needle before ∧
      occurrences source needle change.newId = fileCount source needle after := by
  rcases Changes.changeAt_cases happened with ⟨before, after, oldFile, newFile, same⟩ | ⟨_, none⟩
  · have differ : before ≠ after := by
      rintro rfl
      rw [Changes.between?_same] at same
      cases same
    refine ⟨before, after, oldFile, newFile, differ, occurrences_change same.symm ?_ ?_⟩
    · rintro entry rfl
      exact oldGenuine names entry oldFile
    · rintro entry rfl
      exact newGenuine names entry newFile
  · cases none

/-- Counting fails only at a file of which the payload cannot be read. -/
theorem fileCount_fault {file : Option TreeEntry} {fault : Fault}
    (failed : fileCount source needle file = .error fault) :
    ∃ entry, file = some entry ∧ source.payload entry.id = .error fault := by
  cases file with
  | none => cases failed
  | some entry =>
    refine ⟨entry, rfl, ?_⟩
    rcases read : source.payload entry.id with reason | bytes
    · simpa [fileCount, read, Except.map] using failed
    · simp [fileCount, read, Except.map] at failed

/-- Where nothing happened, and where the identifiers of what happened are counted alike, a path
is unchanged. -/
theorem unchanged_of_told {change : Option Change} (oldGenuine : Genuine source old)
    (newGenuine : Genuine source new)
    (told : Changes.changeAt source old new names = .ok change)
    (equal : ∀ happened, change = some happened → ∃ count,
      occurrences source needle happened.oldId = .ok count ∧
      occurrences source needle happened.newId = .ok count) :
    Unchanged source needle old new names := by
  cases change with
  | some change =>
    obtain ⟨before, after, oldFile, newFile, _, oldCount, newCount⟩ :=
      files_of_change needle oldGenuine newGenuine told
    obtain ⟨count, oldKnown, newKnown⟩ := equal change rfl
    have oldCounted : countAt source needle old names = .ok count := by
      rw [countAt, oldFile, ← oldKnown, oldCount]
    have newCounted : countAt source needle new names = .ok count := by
      rw [countAt, newFile, ← newKnown, newCount]
    exact .counted oldCounted newCounted
  | none =>
    rcases Changes.changeAt_cases told with ⟨before, after, oldFile, newFile, same⟩ | ⟨shared, _⟩
    · obtain rfl := Changes.eq_of_between? same.symm
      cases before with
      | none =>
        have oldCounted : countAt source needle old names = .ok 0 := by rw [countAt, oldFile]; rfl
        have newCounted : countAt source needle new names = .ok 0 := by rw [countAt, newFile]; rfl
        exact .counted oldCounted newCounted
      | some entry => exact .same oldFile newFile
    · exact .shared shared

/-- The search among changes says what a comparison of all paths says. -/
theorem treesDiffer_compares (needle : Needle) (old : Option ObjectId) {new : ObjectId}
    (oldOrderly : ∀ id, old = some id → source.Orderly id)
    (newOrderly : source.Orderly new) (oldGenuine : Genuine source old)
    (newGenuine : Genuine source (some new)) :
    Compares source needle old (some new) (treesDiffer source needle old new) := by
  rw [treesDiffer]
  rcases Changes.between_tells oldOrderly newOrderly with
    ⟨changes, compared, told, _, listed⟩ | ⟨fault, failed, blocked⟩
  · have searched := anyDiffers_searched source needle changes
    rw [compared]
    simp only
    generalize anyDiffers source needle changes = result at searched ⊢
    cases searched with
    | differs member oldCount newCount differ =>
      obtain ⟨names, _, happened⟩ := (listed _ _).mp member
      obtain ⟨before, after, oldFile, newFile, _, oldSame, newSame⟩ :=
        files_of_change needle oldGenuine newGenuine happened
      refine .differs names ⟨_, _, ?_, ?_, differ⟩
      · rw [countAt, oldFile, ← oldCount, oldSame]
      · rw [countAt, newFile, ← newCount, newSame]
    | equal all =>
      refine .unchanged fun names => ?_
      obtain ⟨result, known⟩ := told names
      refine unchanged_of_told oldGenuine newGenuine known fun change some => ?_
      subst some
      exact all _ change ((listed _ change).mpr ⟨names, rfl, known⟩)
    | failed member failed =>
      obtain ⟨names, _, happened⟩ := (listed _ _).mp member
      obtain ⟨before, after, oldFile, newFile, differ, oldSame, newSame⟩ :=
        files_of_change needle oldGenuine newGenuine happened
      rw [oldSame, newSame] at failed
      rcases failed with failed | failed
      · obtain ⟨entry, present, unread⟩ := fileCount_fault failed
        exact .withheld
          ⟨names, before, after, entry, oldFile, newFile, differ, .inl present, unread⟩
      · obtain ⟨entry, present, unread⟩ := fileCount_fault failed
        exact .withheld
          ⟨names, before, after, entry, oldFile, newFile, differ, .inr present, unread⟩
  · rw [failed]
    exact .blocked blocked

/-- A tree that is finitely nested, of which the names make paths, and in which no file stands
for an absent object. -/
structure Regular (source : Source) (tree : ObjectId) : Prop where
  orderly : source.Orderly tree
  genuine : Genuine source (some tree)

/-- The comparison of a regular tree with that of a parent. -/
theorem Regular.compares (needle : Needle) {old new : ObjectId}
    (oldRegular : Regular source old) (newRegular : Regular source new) :
    Compares source needle (some old) (some new) (treesDiffer source needle (some old) new) :=
  treesDiffer_compares needle _ (fun _ same => Option.some.inj same ▸ oldRegular.orderly)
    newRegular.orderly oldRegular.genuine newRegular.genuine

/-- What the comparison of a snapshot with those of some parents comes to. -/
inductive Confronts (source : Source) (needle : Needle) (tree : ObjectId)
    (parents : List ObjectId) : Except Fault Bool → Prop where
  | differs {id : ObjectId} {node : Node} (member : id ∈ parents)
      (resolved : source.node id = .ok node)
      (compares : Compares source needle (some node.tree) (some tree) (.ok true)) :
      Confronts source needle tree parents (.ok true)
  | unchanged (all : ∀ id ∈ parents, ∃ node, source.node id = .ok node ∧
        Compares source needle (some node.tree) (some tree) (.ok false)) :
      Confronts source needle tree parents (.ok false)
  | unresolved {id : ObjectId} {fault : Fault} (member : id ∈ parents)
      (failed : source.node id = .error fault) : Confronts source needle tree parents (.error fault)
  | failed {id : ObjectId} {node : Node} {fault : Fault} (member : id ∈ parents)
      (resolved : source.node id = .ok node)
      (compares : Compares source needle (some node.tree) (some tree) (.error fault)) :
      Confronts source needle tree parents (.error fault)

/-- What is said of the later parents is said of all, where the first one is unchanged. -/
theorem Confronts.cons {tree id : ObjectId} {node : Node} {parents : List ObjectId}
    {result : Except Fault Bool} (resolved : source.node id = .ok node)
    (unchanged : Compares source needle (some node.tree) (some tree) (.ok false))
    (confronts : Confronts source needle tree parents result) :
    Confronts source needle tree (id :: parents) result := by
  cases confronts with
  | differs member resolved compares =>
    exact .differs (List.mem_cons_of_mem _ member) resolved compares
  | unresolved member failed => exact .unresolved (List.mem_cons_of_mem _ member) failed
  | failed member resolved compares =>
    exact .failed (List.mem_cons_of_mem _ member) resolved compares
  | unchanged all =>
    refine .unchanged fun other member => ?_
    rcases List.mem_cons.mp member with rfl | member
    · exact ⟨node, resolved, unchanged⟩
    · exact all other member

/-- The tree of a commit is confronted with those of its parents in turn, up to the first that
differs or fails.

Proof: by induction on the parents. The graph answers as the source does, whatever it has read
before. -/
theorem anyParentDiffers_confronts (needle : Needle) {tree : ObjectId} {graph : Graph}
    (regular : Regular source tree) (parents : List ObjectId)
    (regularParents : ∀ id ∈ parents, ∀ node, source.node id = .ok node → Regular source node.tree)
    (faithful : graph.Faithful source) :
    ∃ result kept, anyParentDiffers source needle tree parents graph = (result, kept) ∧
      kept.Faithful source ∧ Confronts source needle tree parents result := by
  induction parents generalizing graph with
  | nil =>
    exact ⟨.ok false, graph, rfl, faithful,
      .unchanged fun _ member => absurd member List.not_mem_nil⟩
  | cons id rest inductionHypothesis =>
    obtain ⟨between, answered, stillFaithful⟩ := faithful.resolve id
    rw [anyParentDiffers, answered]
    cases resolved : source.node id with
    | error fault =>
      exact ⟨.error fault, between, rfl, stillFaithful, .unresolved List.mem_cons_self resolved⟩
    | ok node =>
      have compares := (regularParents id List.mem_cons_self node resolved).compares needle regular
      simp only
      generalize treesDiffer source needle (some node.tree) tree = result at compares ⊢
      cases result with
      | error fault =>
        exact ⟨.error fault, between, rfl, stillFaithful,
          .failed List.mem_cons_self resolved compares⟩
      | ok found =>
        cases found with
        | true =>
          exact ⟨.ok true, between, rfl, stillFaithful,
            .differs List.mem_cons_self resolved compares⟩
        | false =>
          obtain ⟨result, kept, ran, last, confronts⟩ := inductionHypothesis
            (fun other member => regularParents other (List.mem_cons_of_mem _ member)) stillFaithful
          exact ⟨result, kept, ran, last, confronts.cons resolved compares⟩

/-- What the comparison of a commit with its parents comes to. -/
inductive Settles (source : Source) (needle : Needle) (node : Node) : Except Fault Bool → Prop where
  | differs {base : Option ObjectId} (compared : Base source node base)
      (compares : Compares source needle base (some node.tree) (.ok true)) :
      Settles source needle node (.ok true)
  | unchanged (resolves : ∀ id ∈ node.parents, source.Resolves id)
      (all : ∀ base, Base source node base →
        Compares source needle base (some node.tree) (.ok false)) :
      Settles source needle node (.ok false)
  | lacks {fault : Fault} (lacks : Lacks source node fault) :
      Settles source needle node (.error fault)

/-- A fault of a comparison is that of something that it needs. -/
theorem Compares.lacks {node : Node} {base : Option ObjectId} {fault : Fault}
    (compares : Compares source needle base (some node.tree) (.error fault))
    (compared : Base source node base) : Lacks source node fault := by
  cases compares with
  | blocked blocked => exact .directory compared blocked
  | withheld withheld => exact .file compared withheld

/-- A commit with parents is compared with them, and with nothing else. -/
theorem Confronts.settles {node : Node} {result : Except Fault Bool} (some : node.parents ≠ [])
    (confronts : Confronts source needle node.tree node.parents result) :
    Settles source needle node result := by
  cases confronts with
  | differs member resolved compares => exact .differs (.parent member resolved) compares
  | unresolved member failed => exact .lacks (.parent member failed)
  | failed member resolved compares => exact .lacks (compares.lacks (.parent member resolved))
  | unchanged all =>
    refine .unchanged (fun id member => ?_) fun base compared => ?_
    · obtain ⟨parent, resolved, _⟩ := all id member
      exact ⟨parent, resolved⟩
    · cases compared with
      | root none => exact absurd none some
      | parent member resolved =>
        obtain ⟨parent, known, compares⟩ := all _ member
        rw [resolved] at known
        obtain rfl := Except.ok.inj known
        exact compares

/-- A root commit is compared with the empty snapshot, and with nothing else. -/
theorem Compares.settles {node : Node} {result : Except Fault Bool} (none : node.parents = [])
    (compares : Compares source needle Option.none (some node.tree) result) :
    Settles source needle node result := by
  cases result with
  | error fault => exact .lacks (compares.lacks (.root none))
  | ok found =>
    cases found with
    | true => exact .differs (.root none) compares
    | false =>
      refine .unchanged (fun id member => ?_) fun base compared => ?_
      · rw [none] at member
        exact absurd member List.not_mem_nil
      · cases compared with
        | root => exact compares
        | parent member =>
          rw [none] at member
          exact absurd member List.not_mem_nil

/-- What is said of a commit settles whether it differs from some parent, or what cannot be read.

Proof: a root is compared with the empty tree, any other commit with the trees of its parents. -/
theorem touches_settles (needle : Needle) {graph : Graph} {node : Node}
    (regular : Regular source node.tree)
    (regularParents : ∀ id ∈ node.parents, ∀ parent, source.node id = .ok parent →
      Regular source parent.tree)
    (faithful : graph.Faithful source) :
    ∃ result kept, touches source needle graph node = (result, kept) ∧ kept.Faithful source ∧
      Settles source needle node result := by
  rw [touches]
  by_cases root : node.isRoot = true
  · rw [if_pos root]
    have compares := treesDiffer_compares needle none nofun regular.orderly
      (fun names entry found => by rw [Source.fileAt_none] at found; cases found) regular.genuine
    exact ⟨_, graph, rfl, faithful, compares.settles (List.isEmpty_iff.mp root)⟩
  · rw [if_neg root]
    obtain ⟨result, kept, ran, stillFaithful, confronts⟩ :=
      anyParentDiffers_confronts needle regular node.parents regularParents faithful
    exact ⟨result, kept, ran, stillFaithful, confronts.settles fun none =>
      root (List.isEmpty_iff.mpr none)⟩

/-- A commit touches a needle if and only if at some path the number of occurrences differs from
that in some parent, or from none for a root commit; and if it does not, every path is
unchanged from every parent. Otherwise something cannot be read that this needs: a parent, a
directory that differs, or a file that does.

Proof: the search goes through the changes between each parent and the commit, and these are the
paths at which the files differ. At all others the counts are the same. -/
theorem touches_exactly (needle : Needle) (node : Node) {graph : Graph}
    (regular : Regular source node.tree)
    (regularParents : ∀ id ∈ node.parents, ∀ parent, source.node id = .ok parent →
      Regular source parent.tree)
    (faithful : graph.Faithful source) :
    ∃ result kept, touches source needle graph node = (result, kept) ∧ kept.Faithful source ∧
      (∀ found, result = .ok found →
        (found = true ↔
          ∃ base names, Base source node base ∧ Differs source needle base (some node.tree) names) ∧
        (found = false → (∀ id ∈ node.parents, source.Resolves id) ∧
          ∀ base, Base source node base →
            ∀ names, Unchanged source needle base (some node.tree) names)) ∧
      ∀ fault, result = .error fault → Lacks source node fault := by
  obtain ⟨result, kept, ran, stillFaithful, settles⟩ :=
    touches_settles needle regular regularParents faithful
  refine ⟨result, kept, ran, stillFaithful, ?_⟩
  cases settles with
  | lacks lacks =>
    refine ⟨nofun, fun fault same => ?_⟩
    obtain rfl := Except.error.inj same
    exact lacks
  | differs compared compares =>
    cases compares with
    | differs names differs =>
      refine ⟨fun found same => ?_, nofun⟩
      obtain rfl := Except.ok.inj same
      exact ⟨⟨fun _ => ⟨_, names, compared, differs⟩, fun _ => rfl⟩, nofun⟩
  | unchanged resolves all =>
    have same : ∀ base, Base source node base →
        ∀ names, Unchanged source needle base (some node.tree) names := by
      intro base compared names
      cases all base compared with
      | unchanged equal => exact equal names
    refine ⟨fun found told => ?_, nofun⟩
    obtain rfl := Except.ok.inj told
    refine ⟨⟨nofun, ?_⟩, fun _ => ⟨resolves, same⟩⟩
    rintro ⟨base, names, compared, differs⟩
    exact absurd differs (same base compared names).not_differs

/-- Nothing that cannot be read stands for an absent object. -/
theorem genuine_unreadable {id : ObjectId} {fault : Fault}
    (failed : source.entries id = .error fault) :
    Genuine source (some id) := by
  intro names entry found
  cases names with
  | nil => cases found
  | cons name rest =>
    have stuck : source.children (some id) = .error fault := failed
    rw [Source.fileAt_stuck stuck] at found
    cases found

/-- A tree of which evaluation finds the entries has genuine files where these entries and its
directories have. -/
theorem genuine_of_list {id : ObjectId} {list : List (String × TreeEntry)}
    (read : (source.entries id).toOption.map (·.toList) = some list)
    (files : ∀ pair ∈ list, pair.2.mode.isTree = false → pair.2.id ≠ .zero)
    (below : ∀ pair ∈ list, pair.2.mode.isTree = true → Genuine source (some pair.2.id)) :
    Genuine source (some id) := by
  obtain ⟨entries, known, present⟩ := Source.entries_of_list read
  have children : source.children (some id) = .ok entries := known
  intro names entry found
  rcases names with _ | ⟨name, _ | ⟨next, rest⟩⟩
  · cases found
  · rw [Source.fileAt_single children] at found
    obtain ⟨here, file⟩ := Option.filter_eq_some_iff.mp (Except.ok.inj found)
    simp only [Bool.and_eq_true, Bool.not_eq_true'] at file
    exact files (name, entry) ((present name entry).mp here) file.1
  · rw [Source.fileAt_cons children] at found
    cases directory : Changes.directoryId? entries[name]? with
    | none =>
      rw [directory, Source.fileAt_none] at found
      cases found
    | some inner =>
      obtain ⟨holder, kept, rfl⟩ := Option.map_eq_some_iff.mp directory
      obtain ⟨here, isTree⟩ := Option.filter_eq_some_iff.mp kept
      rw [directory] at found
      exact below (name, holder) ((present name holder).mp here) isTree (next :: rest) entry found

/-- The object of a root commit with a tree. -/
def rootObject (tree : ObjectId) : Object :=
  ⟨.commit, ("tree ".toList ++ tree.hexChars ++
    "\nauthor <> 0 +0000\ncommitter <> 0 +0000".toList).map fun char => UInt8.ofNat char.toNat⟩

/-- A file that grows beside a directory that stays the same and is missing. -/
def grown : Source :=
  .storing [
    (.uniform 1,
      Source.treeObject [("f", ⟨.uniform 8, .regular⟩), ("s", ⟨.uniform 5, .directory⟩)]),
    (.uniform 3,
      Source.treeObject [("f", ⟨.uniform 9, .regular⟩), ("s", ⟨.uniform 5, .directory⟩)]),
    (.uniform 8, ⟨.blob, [0x61]⟩), (.uniform 9, ⟨.blob, [0x61, 0x61]⟩),
    (.uniform 10, rootObject (.uniform 1))]

/-- The commit in which the file has grown. -/
def growing : Node := ⟨.uniform 11, .uniform 3, [.uniform 10], 0⟩

/-- One tree of this source cannot be read. -/
theorem grown_missing : ∃ fault, grown.entries (.uniform 5) = .error fault := by
  rcases read : grown.entries (.uniform 5) with fault | entries
  · exact ⟨fault, rfl⟩
  · have failed : (grown.entries (.uniform 5)).isOk = false := by decide +kernel
    rw [read] at failed
    cases failed

/-- A tree of one file and the missing directory is regular. -/
theorem grown_regular (id file : ObjectId) (genuine : file ≠ .zero)
    (read : (grown.entries id).toOption.map (·.toList) =
      some [("f", ⟨file, .regular⟩), ("s", ⟨.uniform 5, .directory⟩)]) : Regular grown id := by
  obtain ⟨fault, failed⟩ := grown_missing
  have fileName : Path.IsName "f" := ⟨by decide, by decide, by decide, by decide⟩
  have directoryName : Path.IsName "s" := ⟨by decide, by decide, by decide, by decide⟩
  constructor
  · refine Source.orderly_of_list read (fun pair member => ?_) fun pair member isTree => ?_
    · rcases List.mem_pair.mp member with rfl | rfl
      · exact fileName
      · exact directoryName
    · rcases List.mem_pair.mp member with rfl | rfl
      · cases isTree
      · exact .unreadable failed
  · refine genuine_of_list read (fun pair member plain => ?_) fun pair member isTree => ?_
    · rcases List.mem_pair.mp member with rfl | rfl
      · exact genuine
      · cases plain
    · rcases List.mem_pair.mp member with rfl | rfl
      · cases isTree
      · exact genuine_unreadable failed

/-- The commit touches the letter, of which the file holds one more than before. -/
theorem touches_exactly_grown :
    (∃ kept, touches grown (.literal "a") {} growing = (.ok true, kept)) ∧
      ∃ base names, Base grown growing base ∧
        Differs grown (.literal "a") base (some growing.tree) names := by
  have before : Regular grown (.uniform 1) := grown_regular (.uniform 1) (.uniform 8) (by decide)
    (by decide +kernel)
  have after : Regular grown (.uniform 3) := grown_regular (.uniform 3) (.uniform 9) (by decide)
    (by decide +kernel)
  have parent : grown.node (.uniform 10) = .ok ⟨.uniform 10, .uniform 1, [], 0⟩ :=
    ok_of_toOption (by decide +kernel)
  have parents : ∀ id ∈ growing.parents, ∀ node, grown.node id = .ok node →
      Regular grown node.tree := by
    intro id member node resolved
    rw [List.mem_singleton.mp member, parent] at resolved
    obtain rfl := Except.ok.inj resolved
    exact before
  obtain ⟨result, kept, ran, _, exactly, _⟩ :=
    touches_exactly (.literal "a") growing after parents
      (Graph.faithful_empty grown)
  have found : (touches grown (.literal "a") {} growing).1.toOption = some true := by decide +kernel
  rw [ran] at found
  obtain rfl : result = .ok true := ok_of_toOption found
  exact ⟨⟨kept, ran⟩, (exactly true rfl).1.mp rfl⟩

end Ancestry.Pickaxe
