import Ancestry.Proofs.Trees.Overlays

/-!
# What the comparison of two trees finds

Where two trees can be compared, the changes that are listed are those that happened at
some path, in the order of the paths and each once. Otherwise the fault is that of a
directory which is not the same on both sides. What is proved of a directory holds for
each of its names, whichever of the two loops comes to it: a name of the old side is
handled by the first and passed over by the second.
-/

namespace Ancestry.Changes

variable {source : Source} {old new : Option ObjectId} {before between after : Changes}
  {above : List String} {name : String} {olds news : TreeEntries}

/-- What happened at a path, where that can be told. -/
def found (source : Source) (old new : Option ObjectId) (names : List String) : Option Change :=
  match changeAt source old new names with
  | .ok change => change
  | .error _ => none

/-- What happened can be told at every path. -/
def Told (source : Source) (old new : Option ObjectId) : Prop :=
  ∀ names, ∃ change, changeAt source old new names = .ok change

/-- What the comparison of two directories below a path comes to. -/
def Explains (source : Source) (old new : Option ObjectId) (above : List String)
    (before : Changes) : Except Fault Changes → Prop
  | .ok after => Told source old new ∧ Overlays above (found source old new) before after
  | .error fault => source.Blocked old new fault

/-- Nothing is found in equal directories. -/
theorem changeAt_same (tree : Option ObjectId) (names : List String) :
    changeAt source tree tree names = .ok none := by
  cases names with
  | nil => rfl
  | cons name rest => rw [changeAt, if_pos rfl]

/-- An entry that is no link to another repository. -/
def unlinked (entry : Option TreeEntry) : Option TreeEntry :=
  entry.filter fun entry => !entry.mode.isGitlink

/-- A directory is no link. -/
theorem directoryId?_unlinked (entry : Option TreeEntry) :
    directoryId? (unlinked entry) = directoryId? entry := by
  rcases entry with _ | ⟨id, mode⟩
  · rfl
  · cases mode <;> rfl

/-- What is neither a link nor a directory is a file. -/
theorem leaf?_unlinked (entry : Option TreeEntry) :
    leaf? (unlinked entry) = Source.file? entry := by
  rcases entry with _ | ⟨id, mode⟩
  · rfl
  · cases mode <;> rfl

/-- Where the entries can be read they are listed, without links to other repositories. -/
theorem listing_children {entries : TreeEntries} {tree : Option ObjectId}
    (read : source.children tree = .ok entries) :
    ∃ listed, listing source tree = .ok listed ∧
      ∀ name : String, listed[name]? = unlinked entries[name]? := by
  cases tree with
  | none =>
    obtain rfl := Except.ok.inj read
    exact ⟨∅, rfl, fun name => by simp [unlinked]⟩
  | some id =>
    change source.entries id = .ok entries at read
    refine ⟨entries.filter fun _ entry => !entry.mode.isGitlink, ?_, fun name => ?_⟩
    · simp [listing, read, Except.map]
    · rw [Std.TreeMap.getElem?_filter, Option.pfilter_eq_filter]
      rfl

/-- Where they cannot be read there is no list, for the same reason. -/
theorem listing_stuck {fault : Fault} {tree : Option ObjectId}
    (failed : source.children tree = .error fault) : listing source tree = .error fault := by
  cases tree with
  | none => cases failed
  | some id =>
    change source.entries id = .error fault at failed
    simp [listing, failed, Except.map]

/-- A tree is nested less than `most` deep, or empty. -/
def Nested (source : Source) (most : Nat) (tree : Option ObjectId) : Prop :=
  ∀ id, tree = some id → source.OrderlyWithin most id

/-- The names of a nested tree make paths, its directories are nested less deep, and it is
nested at all if it is not empty. -/
theorem Nested.children {most : Nat} {tree : Option ObjectId} {entries : TreeEntries}
    (nested : Nested source most tree) (read : source.children tree = .ok entries) :
    (∀ (name : String) (entry : TreeEntry), entries[name]? = some entry → Path.IsName name) ∧
      (∀ name : String, Nested source (most - 1) (directoryId? entries[name]?)) ∧
      (tree ≠ none → 0 < most) := by
  cases tree with
  | none =>
    obtain rfl := Except.ok.inj read
    refine ⟨fun name entry found => ?_, fun name id found => ?_, fun some => absurd rfl some⟩
    · simp at found
    · simp [directoryId?] at found
  | some id =>
    cases nested id rfl with
    | unreadable failed =>
      have again : source.entries id = .ok entries := read
      rw [failed] at again
      cases again
    | @tree most _ others known named below =>
      have again : source.entries id = .ok entries := read
      rw [known] at again
      obtain rfl := Except.ok.inj again
      refine ⟨named, fun name directory found => ?_, fun _ => Nat.succ_pos most⟩
      obtain ⟨entry, inside, rfl⟩ := Option.map_eq_some_iff.mp found
      obtain ⟨present, isTree⟩ := Option.filter_eq_some_iff.mp inside
      exact below name entry present isTree

/-- Two directories that differ, with the entries that are compared: what they say at each
name is what happened there. -/
structure Opened (source : Source) (most : Nat) (old new : Option ObjectId)
    (olds news : TreeEntries) : Prop where
  single : ∀ name : String, changeAt source old new [name] =
    .ok (Change.between? (leaf? olds[name]?) (leaf? news[name]?))
  deeper : ∀ (name next : String) (rest : List String),
    changeAt source old new (name :: next :: rest) =
      changeAt source (directoryId? olds[name]?) (directoryId? news[name]?) (next :: rest)
  blocked : ∀ (name : String) (fault : Fault),
    source.Blocked (directoryId? olds[name]?) (directoryId? news[name]?) fault →
      source.Blocked old new fault
  oldNamed : ∀ (name : String) (entry : TreeEntry), olds[name]? = some entry → Path.IsName name
  newNamed : ∀ (name : String) (entry : TreeEntry), news[name]? = some entry → Path.IsName name
  oldNested : ∀ name : String, Nested source most (directoryId? olds[name]?)
  newNested : ∀ name : String, Nested source most (directoryId? news[name]?)

/-- Two directories that differ and can be read are compared by their entries. -/
theorem exists_opened {most : Nat} {oldEntries newEntries : TreeEntries} (differ : old ≠ new)
    (oldNested : Nested source most old) (newNested : Nested source most new)
    (oldRead : source.children old = .ok oldEntries)
    (newRead : source.children new = .ok newEntries) :
    ∃ less olds news, most = less + 1 ∧ listing source old = .ok olds ∧
      listing source new = .ok news ∧ Opened source less old new olds news := by
  obtain ⟨oldNamed, oldBelow, oldSome⟩ := oldNested.children oldRead
  obtain ⟨newNamed, newBelow, newSome⟩ := newNested.children newRead
  obtain ⟨olds, oldListing, oldListed⟩ := listing_children oldRead
  obtain ⟨news, newListing, newListed⟩ := listing_children newRead
  have positive : 0 < most := by
    cases old with
    | some id => exact oldSome nofun
    | none => exact newSome fun none => differ none.symm
  refine ⟨most - 1, olds, news, by omega, oldListing, newListing, ?_⟩
  have unlinked_some : ∀ {entry : Option TreeEntry} {kept : TreeEntry},
      unlinked entry = some kept → entry = some kept := fun same =>
    (Option.filter_eq_some_iff.mp same).1
  refine ⟨fun name => ?_, fun name next rest => ?_, fun name fault blocked => ?_,
    fun name entry found => oldNamed name entry (unlinked_some ((oldListed name).symm.trans found)),
    fun name entry found => newNamed name entry (unlinked_some ((newListed name).symm.trans found)),
    fun name => ?_, fun name => ?_⟩
  · rw [changeAt, if_neg differ, oldRead, newRead, oldListed, newListed, leaf?_unlinked,
      leaf?_unlinked]
  · rw [changeAt, if_neg differ, oldRead, newRead, oldListed, newListed, directoryId?_unlinked,
      directoryId?_unlinked]
  · rw [oldListed, newListed, directoryId?_unlinked, directoryId?_unlinked] at blocked
    exact blocked.cons oldRead newRead
  · rw [oldListed, directoryId?_unlinked]
    exact oldBelow name
  · rw [newListed, directoryId?_unlinked]
    exact newBelow name

/-- What came of comparing two directories at some of their names. -/
def Handles (source : Source) (old new : Option ObjectId) (above handled : List String)
    (before : Changes) : Except Fault Changes → Prop
  | .ok after =>
    (∀ name ∈ handled, ∀ rest, ∃ change, changeAt source old new (name :: rest) = .ok change) ∧
      Overlays above (among handled (found source old new)) before after
  | .error fault => source.Blocked old new fault

/-- At no name nothing is found. -/
theorem handles_nothing (neat : before.Neat) :
    Handles source old new above [] before (.ok before) := by
  refine ⟨fun name member => absurd member List.not_mem_nil, (Overlays.refl neat).congr ?_⟩
  rintro (_ | ⟨name, rest⟩) <;> simp [among]

/-- What came of one name and then of others is what came of all. -/
theorem Handles.andThen {handled : List String} {result : Except Fault Changes}
    (first : Handles source old new above [name] before (.ok between))
    (later : Handles source old new above handled between result) :
    Handles source old new above (name :: handled) before result := by
  cases result with
  | error fault => exact later
  | ok after =>
    refine ⟨fun other member => ?_, first.2.among later.2⟩
    rcases List.mem_cons.mp member with rfl | member
    · exact first.1 other List.mem_cons_self
    · exact later.1 other member

variable {most : Nat}

/-- What can be told of a path is found there. -/
theorem found_of_changeAt {names : List String} {change : Option Change}
    (told : changeAt source old new names = .ok change) : found source old new names = change := by
  rw [found, told]

/-- Where both sides have the same entry nothing happened. -/
theorem Opened.handles_same (opened : Opened source most old new olds news) (neat : before.Neat)
    (same : olds[name]? = news[name]?) :
    Handles source old new above [name] before (.ok before) := by
  have nothing : ∀ rest, changeAt source old new (name :: rest) = .ok none := by
    intro rest
    cases rest with
    | nil => rw [opened.single, same, between?_same]
    | cons next rest => rw [opened.deeper, same, changeAt_same]
  refine ⟨fun other member rest => ?_, (Overlays.refl neat).congr fun names => ?_⟩
  · obtain rfl := List.mem_singleton.mp member
    exact ⟨none, nothing rest⟩
  · cases names with
    | nil => rfl
    | cons first rest =>
      rw [among]
      split
      · rename_i member
        obtain rfl := List.mem_singleton.mp member
        exact (found_of_changeAt (nothing rest)).symm
      · rfl

/-- The comparison of one name: first the directories, then the files. -/
theorem Opened.handles_name (opened : Opened source most old new olds news)
    (valid : ∀ name ∈ above, Path.IsName name) (isName : Path.IsName name)
    {result : Except Fault Changes}
    (explains : Explains source (directoryId? olds[name]?) (directoryId? news[name]?)
      (above ++ [name]) before result) :
    Handles source old new above [name] before
      (result.map (·.insert? (Path.ofNames (above ++ [name]))
        (Change.between? (leaf? olds[name]?) (leaf? news[name]?)))) := by
  cases result with
  | error fault => exact opened.blocked name fault explains
  | ok between =>
    obtain ⟨told, overlays⟩ := explains
    have files := insert?_overlays overlays.neat valid isName
      (Change.between? (leaf? olds[name]?) (leaf? news[name]?))
    constructor
    · intro other member rest
      obtain rfl := List.mem_singleton.mp member
      cases rest with
      | nil => exact ⟨_, opened.single other⟩
      | cons next rest =>
        obtain ⟨change, happened⟩ := told (next :: rest)
        exact ⟨change, (opened.deeper other next rest).trans happened⟩
    · refine (overlays.under.trans files).congr fun names => ?_
      rcases names with _ | ⟨first, _ | ⟨next, rest⟩⟩
      · simp [under, among]
      · by_cases same : first = name
        · subst same
          have here := found_of_changeAt (opened.single first)
          have none :
              found source (directoryId? olds[first]?) (directoryId? news[first]?) [] = none :=
            found_of_changeAt rfl
          simp [under, among, here, none]
        · simp [under, among, same]
      · by_cases same : first = name
        · subst same
          have deeper : found source old new (first :: next :: rest) =
              found source (directoryId? olds[first]?) (directoryId? news[first]?)
                (next :: rest) := by
            rw [found, opened.deeper, found]
          simp [under, among, deeper]
        · simp [under, among, same]

/-- Every pair of directories below a path is explained by a comparison. -/
def Sound (source : Source) (most : Nat) (compare : Comparison) : Prop :=
  ∀ (old new : Option ObjectId) (above : List String) (before : Changes),
    Nested source most old → Nested source most new → (∀ name ∈ above, Path.IsName name) →
    before.Neat → Explains source old new above before (compare old new (Path.ofNames above) before)

/-- The comparison of the two entries of a name. -/
theorem Opened.handles_entry {compare : Comparison} (sound : Sound source most compare)
    (opened : Opened source most old new olds news) (valid : ∀ name ∈ above, Path.IsName name)
    (isName : Path.IsName name) (neat : before.Neat) :
    Handles source old new above [name] before
      ((compare (directoryId? olds[name]?) (directoryId? news[name]?)
        ((Path.ofNames above).join name) before).map
          (·.insert? ((Path.ofNames above).join name)
            (Change.between? (leaf? olds[name]?) (leaf? news[name]?)))) := by
  have all : ∀ other ∈ above ++ [name], Path.IsName other :=
    List.forall_mem_append.mpr ⟨valid, List.forall_mem_singleton.mpr isName⟩
  rw [Path.join_ofNames valid isName]
  exact opened.handles_name valid isName
    (sound _ _ _ _ (opened.oldNested name) (opened.newNested name) all neat)

/-- The first loop handles all names of the old side. -/
theorem compareOld_handles {compare : Comparison} (sound : Sound source most compare)
    (opened : Opened source most old new olds news) (valid : ∀ name ∈ above, Path.IsName name)
    (list : List (String × TreeEntry)) (entries : ∀ pair ∈ list, olds[pair.1]? = some pair.2)
    (neat : before.Neat) :
    Handles source old new above (list.map Prod.fst) before
      (compareOld compare news (Path.ofNames above) list before) := by
  induction list generalizing before with
  | nil => exact handles_nothing neat
  | cons pair rest inductionHypothesis =>
    obtain ⟨name, entry⟩ := pair
    have present : olds[name]? = some entry := entries (name, entry) List.mem_cons_self
    have others : ∀ pair ∈ rest, olds[pair.1]? = some pair.2 := fun pair member =>
      entries pair (List.mem_cons_of_mem _ member)
    rw [compareOld]
    by_cases same : news[name]? = some entry
    · rw [if_pos same]
      exact (opened.handles_same neat (present.trans same.symm)).andThen
        (inductionHypothesis others neat)
    · rw [if_neg same]
      have handles := opened.handles_entry sound valid (opened.oldNamed name entry present) neat
      rw [present] at handles
      simp only
      generalize compare (directoryId? (some entry)) (directoryId? news[name]?)
        ((Path.ofNames above).join name) before = result at handles ⊢
      cases result with
      | error fault => exact handles
      | ok between => exact handles.andThen (inductionHypothesis others handles.2.neat)

/-- The second loop handles the names that only the new side has. -/
theorem compareNew_handles {compare : Comparison} (sound : Sound source most compare)
    (opened : Opened source most old new olds news) (valid : ∀ name ∈ above, Path.IsName name)
    (list : List (String × TreeEntry)) (entries : ∀ pair ∈ list, news[pair.1]? = some pair.2)
    (neat : before.Neat) :
    Handles source old new above ((list.map Prod.fst).filter (!olds.contains ·)) before
      (compareNew compare olds (Path.ofNames above) list before) := by
  induction list generalizing before with
  | nil => exact handles_nothing neat
  | cons pair rest inductionHypothesis =>
    obtain ⟨name, entry⟩ := pair
    have present : news[name]? = some entry := entries (name, entry) List.mem_cons_self
    have others : ∀ pair ∈ rest, news[pair.1]? = some pair.2 := fun pair member =>
      entries pair (List.mem_cons_of_mem _ member)
    rw [compareNew]
    by_cases known : olds.contains name = true
    · rw [if_pos known, List.map_cons, List.filter_cons_of_neg (by simp [known])]
      exact inductionHypothesis others neat
    · have absent : olds[name]? = none :=
        Std.TreeMap.getElem?_eq_none fun member => known (Std.TreeMap.mem_iff_contains.mp member)
      rw [if_neg known, List.map_cons,
        List.filter_cons_of_pos (Bool.not_eq_true' _ ▸ Bool.eq_false_iff.mpr known)]
      have handles := opened.handles_entry sound valid (opened.newNamed name entry present) neat
      rw [present, absent] at handles
      change Handles source old new above [name] before ((compare none (directoryId? (some entry))
        ((Path.ofNames above).join name) before).map (·.insert? ((Path.ofNames above).join name)
          (Change.between? none (leaf? (some entry))))) at handles
      simp only
      generalize compare none (directoryId? (some entry)) ((Path.ofNames above).join name) before =
        result at handles ⊢
      cases result with
      | error fault => exact handles
      | ok between => exact handles.andThen (inductionHypothesis others handles.2.neat)

/-- Where nothing is found at any name, nothing happened. -/
theorem Opened.absent (opened : Opened source most old new olds news)
    (oldAbsent : olds[name]? = none) (newAbsent : news[name]? = none) (rest : List String) :
    changeAt source old new (name :: rest) = .ok none := by
  cases rest with
  | nil => rw [opened.single, oldAbsent, newAbsent, between?_same]
  | cons next rest => rw [opened.deeper, oldAbsent, newAbsent, changeAt_same]

/-- Both loops together handle all names. -/
theorem Opened.explains (opened : Opened source most old new olds news)
    {result : Except Fault Changes}
    (first : Handles source old new above (olds.toList.map Prod.fst) before (.ok between))
    (second : Handles source old new above
      ((news.toList.map Prod.fst).filter (!olds.contains ·)) between result) :
    Explains source old new above before result := by
  have keys : ∀ (entries : TreeEntries) (name : String),
      name ∈ entries.toList.map Prod.fst ↔ name ∈ entries := by
    intro entries name
    rw [Std.TreeMap.map_fst_toList_eq_keys, Std.TreeMap.mem_keys]
  have either : ∀ name, name ∉ olds.toList.map Prod.fst →
      name ∉ (news.toList.map Prod.fst).filter (!olds.contains ·) →
      ∀ rest, changeAt source old new (name :: rest) = .ok none := by
    intro name oldForeign newForeign rest
    have oldAbsent : name ∉ olds := fun member => oldForeign ((keys olds name).mpr member)
    have newAbsent : name ∉ news := by
      intro member
      refine newForeign (List.mem_filter.mpr ⟨(keys news name).mpr member, ?_⟩)
      rw [Bool.not_eq_true', ← Bool.not_eq_true, ← Std.TreeMap.mem_iff_contains]
      exact oldAbsent
    exact opened.absent (Std.TreeMap.getElem?_eq_none oldAbsent)
      (Std.TreeMap.getElem?_eq_none newAbsent) rest
  cases result with
  | error fault => exact second
  | ok after =>
    refine ⟨fun names => ?_, (first.2.trans second.2).congr fun names => ?_⟩
    · cases names with
      | nil => exact ⟨none, rfl⟩
      | cons name rest =>
        by_cases oldMember : name ∈ olds.toList.map Prod.fst
        · exact first.1 name oldMember rest
        · by_cases newMember : name ∈ (news.toList.map Prod.fst).filter (!olds.contains ·)
          · exact second.1 name newMember rest
          · exact ⟨none, either name oldMember newMember rest⟩
    · cases names with
      | nil => exact (found_of_changeAt rfl).symm
      | cons name rest =>
        rw [among, among]
        by_cases newMember : name ∈ (news.toList.map Prod.fst).filter (!olds.contains ·)
        · rw [if_pos newMember]
          by_cases oldMember : name ∈ olds.toList.map Prod.fst
          · rw [if_pos oldMember, Option.or_self]
          · rw [if_neg oldMember, Option.or_none]
        · rw [if_neg newMember, Option.none_or]
          by_cases oldMember : name ∈ olds.toList.map Prod.fst
          · rw [if_pos oldMember]
          · rw [if_neg oldMember, found_of_changeAt (either name oldMember newMember rest)]

/-- Only a tree that is there can be unreadable. -/
theorem children_fault {tree : Option ObjectId} {fault : Fault}
    (failed : source.children tree = .error fault) :
    ∃ id, tree = some id ∧ source.entries id = .error fault := by
  cases tree with
  | none => cases failed
  | some id => exact ⟨id, rfl, failed⟩

/-- One level of the comparison: the directories are the same, one of them cannot be read, or
the two loops handle all names of either side. -/
theorem compareWithin_level (below : ∀ less, most = less + 1 →
      Sound source less (compareWithin source less)) :
    Sound source most (compareWithin source most) := by
  intro old new above before oldNested newNested valid neat
  rw [compareWithin]
  by_cases same : old = new
  · subst same
    rw [if_pos rfl]
    refine ⟨fun names => ⟨none, changeAt_same old names⟩,
      (Overlays.refl neat).congr fun names => ?_⟩
    exact (found_of_changeAt (changeAt_same old names)).symm
  · rw [if_neg same]
    cases oldRead : source.children old with
    | error fault =>
      obtain ⟨id, some, failed⟩ := children_fault oldRead
      rw [listing_stuck oldRead]
      exact ⟨[], old, new, id, rfl, rfl, same, .inl some, failed⟩
    | ok oldEntries =>
      cases newRead : source.children new with
      | error fault =>
        obtain ⟨id, some, failed⟩ := children_fault newRead
        obtain ⟨listed, oldListing, _⟩ := listing_children oldRead
        rw [oldListing, listing_stuck newRead]
        exact ⟨[], old, new, id, rfl, rfl, same, .inr some, failed⟩
      | ok newEntries =>
        obtain ⟨less, olds, news, rfl, oldListing, newListing, opened⟩ :=
          exists_opened same oldNested newNested oldRead newRead
        have sound := below less rfl
        have first := compareOld_handles sound opened valid olds.toList
          (fun pair member => Std.TreeMap.mem_toList_iff_getElem?_eq_some.mp member) neat
        rw [oldListing, newListing]
        simp only
        generalize compareOld (compareWithin source less) news (Path.ofNames above) olds.toList
          before = result at first ⊢
        cases result with
        | error fault => exact first
        | ok between =>
          exact opened.explains first (compareNew_handles sound opened valid news.toList
            (fun pair member => Std.TreeMap.mem_toList_iff_getElem?_eq_some.mp member) first.2.neat)

/-- A comparison with enough depth explains every pair of directories. -/
theorem compareWithin_sound (source : Source) (most : Nat) :
    Sound source most (compareWithin source most) := by
  induction most with
  | zero => exact compareWithin_level nofun
  | succ most inductionHypothesis =>
    refine compareWithin_level fun less same => ?_
    obtain rfl := Nat.succ.inj same
    exact inductionHypothesis

/-- What the comparison of two trees comes to: either the changes that happened, in the order of
their paths and each once, or the fault of a directory that is not the same on both sides. -/
theorem between_tells {new : ObjectId} (oldOrderly : ∀ id, old = some id → source.Orderly id)
    (newOrderly : source.Orderly new) :
    (∃ changes, Changes.between source old new = .ok changes ∧ Told source old (some new) ∧
        (changes.Pairwise fun earlier later =>
          compare earlier.1.parts later.1.parts = .lt) ∧
        ∀ path change, (path, change) ∈ changes ↔
          ∃ names, path = Path.ofNames names ∧
            changeAt source old (some new) names = .ok (some change)) ∨
      ∃ fault, Changes.between source old new = .error fault ∧
        source.Blocked old (some new) fault := by
  have explains := compareWithin_sound source (2 * ObjectId.total) old (some new) [] {}
    (fun id same => (oldOrderly id same).within_total)
    (fun id same => Option.some.inj same ▸ newOrderly.within_total)
    (fun _ member => absurd member List.not_mem_nil) neat_empty
  have top : Path.ofNames [] = ⟨""⟩ := rfl
  rw [top] at explains
  rw [Changes.between]
  generalize compareWithin source (2 * ObjectId.total) old (some new) ⟨""⟩ {} = result at explains ⊢
  cases result with
  | error fault => exact .inr ⟨fault, rfl, explains⟩
  | ok changes =>
    obtain ⟨told, overlays⟩ := explains
    refine .inl ⟨changes.toList, rfl, told, toList_ordered overlays.neat, fun path change => ?_⟩
    rw [mem_toList overlays.neat]
    have recorded : ∀ names, changes.at? names = some change ↔
        changeAt source old (some new) names = .ok (some change) := by
      intro names
      obtain ⟨happened, told⟩ := told names
      have inside := overlays.inside names
      rw [List.nil_append, at?_empty, Option.or_none, found_of_changeAt told] at inside
      rw [inside, told, Except.ok.injEq]
    simp only [recorded]

end Ancestry.Changes
