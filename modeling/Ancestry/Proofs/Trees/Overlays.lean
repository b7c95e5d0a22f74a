import Ancestry.Proofs.Trees.Snapshots

/-!
# Changes laid over changes

Comparing two directories records changes at paths below the one at which the directories
stand, in place of what was recorded there, and leaves all other paths alone. Recorded are
only paths of names, so that a path is told by its names and is written in one way.
-/

namespace Ancestry.Changes

variable {changes before between after : Changes} {names above : List String} {name : String}

/-- The parts of a path of names. -/
def key (names : List String) : List Path.Part := names.map Path.Part.name

/-- Names can be told from the parts that they make. -/
theorem key_injective : Function.Injective key :=
  List.map_injective_iff.mpr fun _ _ same => Path.Part.name.inj same

/-- What is recorded at a path. -/
def at? (changes : Changes) (names : List String) : Option Change :=
  changes.entries[key names]?.map Prod.snd

/-- Every record stands at a path of names, which is written with slashes between them. -/
def Neat (changes : Changes) : Prop :=
  ∀ (parts : List Path.Part) (path : Path) (change : Change),
    changes.entries[parts]? = some (path, change) →
    ∃ names, (∀ name ∈ names, Path.IsName name) ∧ parts = key names ∧ path = Path.ofNames names

/-- Nothing is recorded at first. -/
theorem neat_empty : Neat {} := by
  intro parts path change found
  simp at found

/-- Without changes nothing happened anywhere. -/
theorem at?_empty (names : List String) : ({} : Changes).at? names = none := by
  simp [at?]

/-- A record is put at its path. -/
theorem entries_insert (neat : changes.Neat) (valid : ∀ name ∈ names, Path.IsName name)
    (change : Change) :
    (changes.insert (Path.ofNames names) change).entries =
      changes.entries.insert (key names) (Path.ofNames names, change) := by
  have parts : (Path.ofNames names).parts = key names := Path.parts_ofNames valid
  simp only [insert, parts]
  cases found : changes.entries[key names]? with
  | none => rfl
  | some record =>
    obtain ⟨path, earlier⟩ := record
    obtain ⟨others, _, same, rfl⟩ := neat (key names) path earlier found
    obtain rfl := key_injective same
    rfl

/-- A change at a path of names leaves changes neat. -/
theorem insert_neat (neat : changes.Neat) (valid : ∀ name ∈ names, Path.IsName name)
    (change : Change) : (changes.insert (Path.ofNames names) change).Neat := by
  intro parts path other found
  rw [entries_insert neat valid, Std.TreeMap.getElem?_insert] at found
  by_cases same : compare (key names) parts = .eq
  · rw [if_pos same] at found
    obtain ⟨rfl, rfl⟩ := Prod.mk.inj (Option.some.inj found)
    exact ⟨names, valid, (Std.LawfulEqCmp.eq_of_compare same).symm, rfl⟩
  · rw [if_neg same] at found
    exact neat parts path other found

/-- A change that is inserted is found at its path, and elsewhere what was there. -/
theorem insert_at? (neat : changes.Neat) (valid : ∀ name ∈ names, Path.IsName name)
    (change : Change) (others : List String) :
    (changes.insert (Path.ofNames names) change).at? others =
      if names = others then some change else changes.at? others := by
  simp only [at?, entries_insert neat valid, Std.TreeMap.getElem?_insert,
    Std.LawfulEqCmp.compare_eq_iff_eq, key_injective.eq_iff]
  split <;> rfl

/-- One set of changes is another with `found` laid over it below a path. -/
structure Overlays (above : List String) (found : List String → Option Change)
    (before after : Changes) : Prop where
  neat : after.Neat
  inside : ∀ names, after.at? (above ++ names) = (found names).or (before.at? (above ++ names))
  outside : ∀ names, ¬ above <+: names → after.at? names = before.at? names

/-- Where nothing is found nothing changes. -/
theorem Overlays.refl (neat : before.Neat) : Overlays above (fun _ => none) before before :=
  ⟨neat, fun _ => rfl, fun _ _ => rfl⟩

/-- What is laid over matters only by what is found in it. -/
theorem Overlays.congr {found others : List String → Option Change}
    (overlays : Overlays above found before after) (same : ∀ names, found names = others names) :
    Overlays above others before after := by
  have equal : found = others := funext same
  exact equal ▸ overlays

/-- What is found later is laid over what was found earlier. -/
theorem Overlays.trans {first second : List String → Option Change}
    (earlier : Overlays above first before between) (later : Overlays above second between after) :
    Overlays above (fun names => (second names).or (first names)) before after := by
  refine ⟨later.neat, fun names => ?_, fun names foreign => ?_⟩
  · rw [later.inside, earlier.inside, Option.or_assoc]
  · rw [later.outside names foreign, earlier.outside names foreign]

/-- What is found below one name. -/
def under (name : String) (found : List String → Option Change) : List String → Option Change
  | [] => none
  | first :: rest => if first = name then found rest else none

/-- What is found below a further name is found below the path. -/
theorem Overlays.under {found : List String → Option Change}
    (overlays : Overlays (above ++ [name]) found before after) :
    Overlays above (Changes.under name found) before after := by
  refine ⟨overlays.neat, fun names => ?_, fun names foreign => ?_⟩
  · cases names with
    | nil =>
      refine overlays.outside _ fun within => ?_
      have long := within.length_le
      simp at long
    | cons first rest =>
      by_cases same : first = name
      · subst same
        have inside := overlays.inside rest
        rw [List.append_assoc, List.singleton_append] at inside
        rw [inside, Changes.under, if_pos rfl]
      · rw [Changes.under, if_neg same, Option.none_or]
        refine overlays.outside _ fun within => same ?_
        have begins := (List.prefix_append_right_inj above).mp within
        exact (List.cons_prefix_cons.mp begins).1.symm
  · refine overlays.outside names fun within => foreign ?_
    exact (List.prefix_append above [name]).trans within

/-- What may have happened to an entry is recorded under its name. -/
theorem insert?_overlays (neat : before.Neat) (valid : ∀ name ∈ above, Path.IsName name)
    (isName : Path.IsName name) (change : Option Change) :
    Overlays above (fun names => if names = [name] then change else none) before
      (before.insert? (Path.ofNames (above ++ [name])) change) := by
  have all : ∀ other ∈ above ++ [name], Path.IsName other :=
    List.forall_mem_append.mpr ⟨valid, List.forall_mem_singleton.mpr isName⟩
  cases change with
  | none => exact (Overlays.refl neat).congr fun names => by simp
  | some change =>
    refine ⟨insert_neat neat all change, fun names => ?_, fun names foreign => ?_⟩
    · simp only [insert?, insert_at? neat all, List.append_cancel_left_eq, eq_comm (a := [name])]
      split <;> simp
    · simp only [insert?, insert_at? neat all]
      refine if_neg fun same => foreign ?_
      exact same ▸ List.prefix_append above [name]

/-- What is found where a path begins with one of some names. -/
def among (handled : List String) (found : List String → Option Change) :
    List String → Option Change
  | [] => none
  | name :: rest => if name ∈ handled then found (name :: rest) else none

/-- What is found under one name after another is found under all of them. -/
theorem Overlays.among {found : List String → Option Change} {handled : List String}
    (earlier : Overlays above (Changes.among [name] found) before between)
    (later : Overlays above (Changes.among handled found) between after) :
    Overlays above (Changes.among (name :: handled) found) before after := by
  refine (earlier.trans later).congr fun names => ?_
  cases names with
  | nil => rfl
  | cons first rest =>
    simp only [Changes.among, List.mem_cons, List.not_mem_nil, or_false]
    by_cases same : first = name <;> by_cases member : first ∈ handled <;>
      cases found (first :: rest) <;> simp_all

/-- Changes are listed with their paths. -/
theorem toList_eq (changes : Changes) : changes.toList = changes.entries.toList.map Prod.snd := by
  have folded : changes.toList = changes.entries.foldr (fun _ record rest => record :: rest) [] :=
    rfl
  rw [folded, Std.TreeMap.foldr_eq_foldr_toList]
  induction changes.entries.toList with
  | nil => rfl
  | cons record rest inductionHypothesis => rw [List.foldr_cons, inductionHypothesis, List.map_cons]

/-- Listed are the changes that are recorded. -/
theorem mem_toList (neat : changes.Neat) (path : Path) (change : Change) :
    (path, change) ∈ changes.toList ↔
      ∃ names, path = Path.ofNames names ∧ changes.at? names = some change := by
  rw [toList_eq, List.mem_map]
  constructor
  · rintro ⟨⟨parts, record⟩, member, rfl⟩
    have found := Std.TreeMap.mem_toList_iff_getElem?_eq_some.mp member
    obtain ⟨names, _, rfl, rfl⟩ := neat parts path change found
    exact ⟨names, rfl, by simp [at?, found]⟩
  · rintro ⟨names, rfl, recorded⟩
    obtain ⟨⟨path, other⟩, found, rfl⟩ := Option.map_eq_some_iff.mp recorded
    obtain ⟨others, _, same, rfl⟩ := neat (key names) path other found
    obtain rfl := key_injective same
    exact ⟨(key names, Path.ofNames names, other),
      Std.TreeMap.mem_toList_iff_getElem?_eq_some.mpr found, rfl⟩

/-- Changes are listed in the order of their paths, and no path twice. -/
theorem toList_ordered (neat : changes.Neat) :
    changes.toList.Pairwise fun earlier later =>
      compare earlier.1.parts later.1.parts = .lt := by
  rw [toList_eq, List.pairwise_map]
  have parts : ∀ record ∈ changes.entries.toList, record.2.1.parts = record.1 := by
    rintro ⟨parts, path, change⟩ member
    have found := Std.TreeMap.mem_toList_iff_getElem?_eq_some.mp member
    obtain ⟨names, valid, rfl, rfl⟩ := neat parts path change found
    exact Path.parts_ofNames valid
  refine Std.TreeMap.ordered_keys_toList.imp_of_mem fun {earlier later} first last order => ?_
  rw [parts earlier first, parts later last]
  exact order

end Ancestry.Changes
