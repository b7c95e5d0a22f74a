import Ancestry.FileSystem.Path
import Ancestry.Proofs.Text.Cutting

/-!
# Paths of names

Names with slashes between them are a path whose parts are these names. This takes names
that are filled, hold no slash, and are not the dots that stand for a directory or for what
is above it. Such a path is continued by a further name, and no two of them are the same.
-/

namespace Ancestry

namespace Path

/-- A name that an entry of a tree may have. -/
structure IsName (name : String) : Prop where
  filled : name ≠ ""
  whole : '/' ∉ name.toList
  notHere : name ≠ "."
  notAbove : name ≠ ".."

/-- The path of some names, from the outermost on. -/
def ofNames (names : List String) : Path := ⟨"/".intercalate names⟩

variable {name : String} {names : List String}

/-- The characters of a path of names are those of the names with slashes between them. -/
theorem ofNames_chars (names : List String) :
    (ofNames names).text.toList = ['/'].intercalate (names.map String.toList) :=
  String.toList_intercalate

/-- A name has no slash to begin with. -/
theorem IsName.relative (isName : IsName name) : isAbsolute ⟨name⟩ = false := by
  refine decide_eq_false fun first => isName.whole ?_
  exact List.mem_of_mem_head? first

/-- The characters of a path of names begin with those of the first name. -/
theorem ofNames_cons (name : String) (names : List String) :
    ∃ rest, (ofNames (name :: names)).text.toList = name.toList ++ rest := by
  rw [ofNames_chars]
  cases names with
  | nil => exact ⟨[], by simp⟩
  | cons next names =>
    exact ⟨'/' :: ['/'].intercalate ((next :: names).map String.toList),
      by simp [List.intercalate_cons_cons]⟩

/-- Where neither a slash nor a single dot begins a path, nothing of it is set apart. -/
theorem anchor_plain {path : Path} (relative : ∀ rest, path.text.toList ≠ '/' :: rest)
    (notHere : path.text.toList ≠ ['.'])
    (notBelow : ∀ rest, path.text.toList ≠ '.' :: '/' :: rest) :
    path.anchor = ("", path.text.toList) := by
  rw [anchor]
  split
  · rename_i rest chars
    exact absurd chars (relative rest)
  · rename_i chars
    exact absurd chars notHere
  · rename_i rest chars
    exact absurd chars (notBelow rest)
  · rfl

/-- Neither a root nor a leading dot stands before the names of a path. -/
theorem anchor_ofNames (valid : ∀ name ∈ names, IsName name) :
    (ofNames names).anchor = ("", (ofNames names).text.toList) := by
  cases names with
  | nil => rfl
  | cons name names =>
    have isName := valid name List.mem_cons_self
    have whole := isName.whole
    obtain ⟨rest, chars⟩ := ofNames_cons name names
    cases letters : name.toList with
    | nil => exact absurd (String.toList_eq_nil_iff.mp letters) isName.filled
    | cons first more =>
      rw [letters] at chars whole
      simp only [List.mem_cons, not_or] at whole
      refine anchor_plain (fun tail same => ?_) (fun same => ?_) fun tail same => ?_
      all_goals
        rw [chars, List.cons_append] at same
        obtain ⟨begins, same⟩ := List.cons.inj same
      · exact whole.1 begins.symm
      · obtain ⟨nothing, _⟩ := List.append_eq_nil_iff.mp same
        refine isName.notHere (String.toList_injective ?_)
        rw [letters, begins, nothing]
        rfl
      · cases more with
        | nil =>
          refine isName.notHere (String.toList_injective ?_)
          rw [letters, begins]
          rfl
        | cons second more =>
          obtain ⟨slash, _⟩ := List.cons.inj same
          exact whole.2 (slash ▸ List.mem_cons_self)

/-- A name is not idle. -/
theorem IsName.not_idle (isName : IsName name) : isIdle name = false := by
  simp [isIdle, isName.filled, isName.notHere]

/-- A name is a part by itself. -/
theorem IsName.part (isName : IsName name) : Part.ofName name = .name name :=
  if_neg isName.notAbove

/-- The parts of a path of names are the names. -/
theorem parts_ofNames (valid : ∀ name ∈ names, IsName name) :
    (ofNames names).parts = names.map Part.name := by
  simp only [parts, anchor_ofNames valid]
  have start :
      ((if "" = "/" then [Part.root] else if "" = "." then [Part.here] else []) : List Part) = [] := by
    decide
  rw [start, List.nil_append]
  cases names with
  | nil => decide
  | cons first rest =>
    have pieces : Pieces.split '/' (ofNames (first :: rest)).text.toList =
        (first :: rest).map String.toList := by
      rw [ofNames_chars]
      refine Pieces.split_intercalate (fun piece member => ?_) (List.cons_ne_nil _ _)
      obtain ⟨name, inside, rfl⟩ := List.mem_map.mp member
      exact (valid name inside).whole
    have texts : ((first :: rest).map String.toList).map String.ofList = first :: rest := by
      rw [List.map_map]
      exact (List.map_congr_left fun name _ => String.ofList_toList).trans (List.map_id _)
    have kept : (first :: rest).filter (!isIdle ·) = first :: rest :=
      List.filter_eq_self.mpr fun name member => by simp [(valid name member).not_idle]
    rw [pieces, texts, kept]
    exact List.map_congr_left fun name member => (valid name member).part

/-- A path is continued with a slash and the next name. -/
theorem ofNames_append (some : names ≠ []) (name : String) :
    (ofNames (names ++ [name])).text = (ofNames names).text ++ "/" ++ name := by
  simp only [ofNames]
  rw [String.intercalate_append_of_ne_nil some (List.cons_ne_nil name []),
    String.intercalate_singleton]

/-- A path of names ends in the last name. -/
theorem ofNames_last (names : List String) (name : String) :
    ∃ before, (ofNames (names ++ [name])).text.toList = before ++ name.toList := by
  by_cases none : names = []
  · subst none
    exact ⟨[], by simp [ofNames]⟩
  · rw [ofNames_append none]
    exact ⟨((ofNames names).text ++ "/").toList, by simp⟩

/-- A path of names does not end in a slash. -/
theorem ofNames_open (valid : ∀ name ∈ names, IsName name) :
    (ofNames names).text.toList.getLast? ≠ some '/' := by
  rcases List.eq_nil_or_concat names with rfl | ⟨before, name, rfl⟩
  · decide
  · obtain ⟨first, chars⟩ := ofNames_last before name
    have isName := valid name (by simp)
    have filled : name.toList ≠ [] := fun empty =>
      isName.filled (String.toList_eq_nil_iff.mp empty)
    rw [List.concat_eq_append, chars, List.getLast?_append_of_ne_nil _ filled]
    exact fun slash => isName.whole (List.mem_of_getLast? slash)

/-- A path of names is continued by a name. -/
theorem join_ofNames (valid : ∀ name ∈ names, IsName name) (isName : IsName name) :
    (ofNames names).join name = ofNames (names ++ [name]) := by
  rw [join, isName.relative]
  cases names with
  | nil => simp [ofNames]
  | cons first rest =>
    have filled : (ofNames (first :: rest)).text.isEmpty = false := by
      obtain ⟨tail, chars⟩ := ofNames_cons first rest
      refine Bool.eq_false_iff.mpr fun empty => (valid first List.mem_cons_self).filled ?_
      rw [String.isEmpty_iff.mp empty] at chars
      exact String.toList_eq_nil_iff.mp (List.append_eq_nil_iff.mp chars.symm).1
    have continued := ofNames_append (List.cons_ne_nil first rest) name
    simp only [filled, Bool.false_eq_true, if_false, Bool.false_or,
      decide_eq_false (ofNames_open valid), ← continued]

end Path

end Ancestry
