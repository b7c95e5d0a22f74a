import Ancestry.Proofs.Text.Utf8
import Ancestry.Proofs.Trees.Names

/-!
# Paths below a directory

Whatever a directory's path looks like, what is joined to it stands behind one slash: the path
is continued name by name, and its parent is the path up to the last slash. Parents are shorter,
so that the parents of a path are those of its parent and the path.
-/

namespace Ancestry.Path

variable {stem group name : String}

/-- The path of something below a directory, whose own path may end in a slash or not. -/
def below (stem next : String) : Path := ⟨stem ++ "/" ++ next⟩

/-- Relative texts are joined to a directory behind one slash. -/
theorem exists_stem {directory : Path} (filled : directory.text ≠ "") :
    ∃ stem, (∀ next, isAbsolute ⟨next⟩ = false → directory.join next = below stem next) ∧
      (directory.text = stem ∨ directory.text = stem ++ "/") := by
  by_cases slashed : directory.text.toList.getLast? = some '/'
  · obtain ⟨stem, chars⟩ := List.getLast?_eq_some_iff.mp slashed
    have text : directory.text = String.ofList stem ++ "/" := by
      rw [← String.toList_inj, chars, String.toList_append, String.toList_ofList]
      rfl
    refine ⟨String.ofList stem, fun next relative => ?_, .inr text⟩
    rw [join, relative, if_neg (by decide), if_pos (by simp [slashed]), below, text]
  · refine ⟨directory.text, fun next relative => ?_, .inl rfl⟩
    rw [join, relative, if_neg (by decide), if_neg (by simp [slashed, filled])]
    rfl

/-- A joined path takes the bytes of both parts and of the slash. -/
theorem size_below (stem next : String) :
    Utf8.size (below stem next).text = Utf8.size stem + 1 + Utf8.size next := by
  rw [below, Utf8.size_append, Utf8.size_append]
  rfl

/-- What stands below a directory continues its names. -/
theorem pieces_below (stem next : String) :
    (below stem next).pieces = pieces ⟨stem⟩ ++ pieces ⟨next⟩ := by
  simp only [pieces, below, String.toList_append]
  rw [← List.map_append, ← Pieces.split_cut]
  simp

/-- What begins with a name is relative. -/
theorem IsName.relative_append (isName : IsName name) (rest : String) :
    isAbsolute ⟨name ++ rest⟩ = false := by
  refine decide_eq_false fun first => isName.whole ?_
  rw [String.toList_append] at first
  cases letters : name.toList with
  | nil => exact absurd (String.toList_eq_nil_iff.mp letters) isName.filled
  | cons c more =>
    rw [letters, List.cons_append, List.head?_cons, Option.some.injEq] at first
    exact first ▸ List.mem_cons_self

/-- A name is one piece. -/
theorem IsName.pieces (isName : IsName name) : pieces ⟨name⟩ = [name] := by
  rw [Path.pieces, Pieces.split_whole isName.whole]
  simp

/-- Two names with a slash between them are two pieces. -/
theorem IsName.pieces_both (isGroup : IsName group) (isName : IsName name) :
    Path.pieces ⟨group ++ "/" ++ name⟩ = [group, name] := by
  have joined := pieces_below group name
  rw [isGroup.pieces, isName.pieces] at joined
  exact joined

/-- What is joined to a path that ends in no slash stands behind one slash. -/
theorem join_filled {path : Path} {next : String} (filled : path.text ≠ "")
    (unslashed : path.text.toList.getLast? ≠ some '/') (relative : isAbsolute ⟨next⟩ = false) :
    path.join next = below path.text next := by
  rw [join, relative, if_neg (by decide), if_neg (by simp [filled, unslashed])]
  rfl

/-- A path below a directory that ends in a name ends in no slash. -/
theorem below_unslashed (stem : String) (isGroup : IsName group) :
    (below stem group).text ≠ "" ∧ (below stem group).text.toList.getLast? ≠ some '/' := by
  have filled : group.toList ≠ [] := fun nothing =>
    isGroup.filled (String.toList_eq_nil_iff.mp nothing)
  refine ⟨by simp [below], fun slash => isGroup.whole (List.mem_of_getLast? ?_)⟩
  rwa [below, String.toList_append, List.getLast?_append_of_ne_nil _ filled] at slash

/-- What is joined to something below a directory stands behind one slash. -/
theorem join_below (stem : String) (isGroup : IsName group) {next : String}
    (relative : isAbsolute ⟨next⟩ = false) :
    (below stem group).join next = below stem (group ++ "/" ++ next) := by
  obtain ⟨filled, unslashed⟩ := below_unslashed stem isGroup
  rw [join_filled filled unslashed relative, below, below, below]
  simp only [String.append_assoc]

/-- The names of a path below a directory go on from those of the directory, which are its own up
to a slash at its end. -/
theorem exists_pieces_join (directory : Path) :
    ∃ base, (∀ next, isAbsolute ⟨next⟩ = false →
        (directory.join next).pieces = base ++ pieces ⟨next⟩) ∧
      (directory.pieces = base ∨ directory.pieces = base ++ [""]) := by
  by_cases filled : directory.text = ""
  · obtain rfl : directory = ⟨""⟩ := congrArg Path.mk filled
    refine ⟨[], fun next relative => ?_, .inr (by decide)⟩
    rw [join, relative, if_neg (by decide), if_pos (by decide), String.empty_append,
      List.nil_append]
  · obtain ⟨stem, joined, form⟩ := exists_stem filled
    refine ⟨pieces ⟨stem⟩, fun next relative => ?_, ?_⟩
    · rw [joined next relative, pieces_below]
    · rcases form with same | slashed
      · exact .inl (congrArg (fun text => pieces ⟨text⟩) same)
      · have ends : pieces ⟨stem ++ "/" ++ ""⟩ = pieces ⟨stem⟩ ++ [""] := pieces_below stem ""
        rw [String.append_empty, ← slashed] at ends
        exact .inr ends

/-- The part of a path that no parent loses and the rest are the path. -/
theorem anchor_whole (path : Path) : path.anchor.1.toList ++ path.anchor.2 = path.text.toList := by
  rw [anchor]
  split
  · rename_i rest chars
    simp [chars]
  · rename_i chars
    simp [chars]
  · rename_i rest chars
    simp [chars]
  · rfl

/-- The names below a directory are in the part that parents lose. -/
theorem split_anchor {path : Path} {front tail : List Char}
    (chars : path.text.toList = front ++ '/' :: tail) :
    ∃ names, Pieces.split '/' path.anchor.2 = names ++ Pieces.split '/' tail := by
  rw [anchor]
  split
  · rename_i rest rooted
    cases front with
    | nil =>
      obtain ⟨_, same⟩ := List.cons.inj (rooted.symm.trans chars)
      exact ⟨[], by rw [same]; rfl⟩
    | cons first front =>
      obtain ⟨_, same⟩ := List.cons.inj (rooted.symm.trans chars)
      exact ⟨_, by rw [same]; exact Pieces.split_cut '/' front tail⟩
  · rename_i dotted
    rw [dotted] at chars
    cases front with
    | nil => simp at chars
    | cons first front => simp at chars
  · rename_i rest dotted
    cases front with
    | nil =>
      rw [dotted] at chars
      simp at chars
    | cons first front =>
      obtain ⟨_, same⟩ := List.cons.inj (dotted.symm.trans chars)
      exact ⟨_, by rw [same]; exact Pieces.split_cut '/' front tail⟩
  · exact ⟨_, by rw [chars]; exact Pieces.split_cut '/' front tail⟩

/-- The names of a text joined again. -/
theorem intercalate_texts (chars : List Char) :
    "/".intercalate ((Pieces.split '/' chars).map String.ofList) = String.ofList chars := by
  have same : String.toList ∘ String.ofList = id := funext fun chars => String.toList_ofList
  rw [← String.toList_inj, String.toList_intercalate, List.map_map, same, List.map_id]
  exact (Pieces.intercalate_split '/' chars).trans String.toList_ofList.symm

/-- The names below a directory come first when a path is read from its end. -/
theorem reversedNames_below (stem : String) {next : String} {last : String} {names : List String}
    (ends : pieces ⟨next⟩ = names ++ [last]) (isName : IsName last) :
    ∃ before, reversedNames (below stem next).anchor.2 = last :: (before ++ names).reverse ∧
      (below stem next).anchor.1 ++ "/".intercalate (before ++ names ++ [last]) =
        stem ++ "/" ++ next := by
  have chars : (below stem next).text.toList = stem.toList ++ '/' :: next.toList := by
    simp [below]
  obtain ⟨before, cut⟩ := split_anchor chars
  have texts : (Pieces.split '/' (below stem next).anchor.2).map String.ofList =
      before.map String.ofList ++ (names ++ [last]) := by
    rw [cut, List.map_append, ← ends]
    rfl
  refine ⟨before.map String.ofList, ?_, ?_⟩
  · rw [reversedNames, texts, ← List.append_assoc, List.reverse_concat]
    exact List.dropWhile_cons_of_neg (by simp [isName.not_idle])
  · rw [List.append_assoc, ← texts, intercalate_texts, ← String.toList_inj, String.toList_append,
      String.toList_ofList]
    exact anchor_whole (below stem next)

/-- The parent of what stands in a group of a directory is the group. -/
theorem parent?_below (stem : String) (isGroup : IsName group) (isName : IsName name) :
    (below stem (group ++ "/" ++ name)).parent? = some (below stem group) := by
  have ends : pieces ⟨group ++ "/" ++ name⟩ = [group] ++ [name] := isGroup.pieces_both isName
  obtain ⟨before, reversed, whole⟩ := reversedNames_below stem ends isName
  rw [parent?]
  simp only [reversed]
  rw [List.reverse_append, List.reverse_singleton, List.singleton_append,
    List.dropWhile_cons_of_neg (by simp [isGroup.not_idle]), List.reverse_cons,
    List.reverse_reverse]
  rw [String.intercalate_append_of_ne_nil (by simp) (List.cons_ne_nil _ _),
    String.intercalate_singleton, ← String.append_assoc, ← String.append_assoc,
    ← String.append_assoc, ← String.append_assoc] at whole
  have same := (String.append_left_inj "/").mp ((String.append_left_inj name).mp whole)
  exact congrArg (some ∘ Path.mk) same

/-- A group of a directory is the first of its own lineage. -/
theorem lineage_below (stem : String) (isGroup : IsName group) :
    ∃ parents, (below stem group).lineage = below stem group :: parents := by
  have ends : pieces ⟨group⟩ = [] ++ [group] := isGroup.pieces
  obtain ⟨before, reversed, _⟩ := reversedNames_below stem ends isGroup
  rw [lineage, ancestors, parent?]
  simp only [reversed]
  exact ⟨_, rfl⟩

/-- Fewer names make a shorter text, unless they all are empty. -/
theorem length_intercalate_lt {kept more : List String} (others : more ≠ [])
    (filled : "/".intercalate (kept ++ more) ≠ "") :
    ("/".intercalate kept).length < ("/".intercalate (kept ++ more)).length := by
  by_cases none : kept = []
  · subst none
    exact Nat.pos_of_ne_zero fun zero => filled (String.length_eq_zero_iff.mp zero)
  · have slash : "/".length = 1 := by decide
    rw [String.intercalate_append_of_ne_nil none others, String.length_append,
      String.length_append, slash]
    omega

/-- The parent of a path is shorter. -/
theorem parent?_shorter {path parent : Path} (up : path.parent? = some parent) :
    parent.text.length < path.text.length := by
  have whole : path.anchor.1 ++ String.ofList path.anchor.2 = path.text := by
    rw [← String.toList_inj, String.toList_append, String.toList_ofList, anchor_whole]
  rw [parent?] at up
  cases reversed : reversedNames path.anchor.2 with
  | nil =>
    simp only [reversed, Option.ite_none_right_eq_some, Option.some.injEq] at up
    obtain ⟨dot, rfl⟩ := up
    rw [← whole, dot, String.length_append]
    exact Nat.lt_add_right _ (by decide)
  | cons last names =>
    simp only [reversed, Option.some.injEq] at up
    subst up
    obtain ⟨idle, pieces⟩ := List.dropWhile_suffix (p := isIdle)
      (l := ((Pieces.split '/' path.anchor.2).map String.ofList).reverse)
    obtain ⟨skipped, rest⟩ := List.dropWhile_suffix (p := isIdle) (l := names)
    have parts : (names.dropWhile isIdle).reverse ++ (idle ++ last :: skipped).reverse =
        (Pieces.split '/' path.anchor.2).map String.ofList := by
      rw [← List.reverse_append, ← List.reverse_inj, List.reverse_reverse, ← pieces,
        show List.dropWhile isIdle _ = last :: names from reversed]
      nth_rewrite 2 [← rest]
      simp
    have filled : String.ofList path.anchor.2 ≠ "" := by
      intro nothing
      rw [String.ofList_eq_empty_iff.mp nothing] at reversed
      cases reversed
    have others : (idle ++ last :: skipped).reverse ≠ [] := by simp
    rw [← intercalate_texts, ← parts] at filled
    have shorter := length_intercalate_lt others filled
    rw [parts, intercalate_texts] at shorter
    rw [← whole, String.length_append, String.length_append]
    omega

/-- With enough steps all parents are listed. -/
theorem ancestors_enough {path : Path} {most other : Nat} (enough : path.text.length < most)
    (otherEnough : path.text.length < other) : ancestors most path = ancestors other path := by
  induction most generalizing path other with
  | zero => omega
  | succ most inductionHypothesis =>
    cases other with
    | zero => omega
    | succ other =>
      rw [ancestors, ancestors]
      cases up : path.parent? with
      | none => rfl
      | some parent =>
        have shorter := parent?_shorter up
        exact congrArg (path :: ·) (inductionHypothesis (by omega) (by omega))

/-- The lineage of a path goes on with that of its parent. -/
theorem lineage_of_parent {path parent : Path} (up : path.parent? = some parent) :
    path.lineage = path :: parent.lineage := by
  have shorter := parent?_shorter up
  rw [lineage, ancestors, up]
  exact congrArg (path :: ·) (ancestors_enough shorter (by omega))

end Ancestry.Path
