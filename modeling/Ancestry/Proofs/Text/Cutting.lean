import Ancestry.Pieces
import Mathlib.Data.List.Basic

/-!
# Cut lists

A cut at a separator takes apart what was put together around it: at the first separator when
what stands before has none, at the last when what stands behind has none, at all of them when
no piece has one. Whatever is cut is the pieces with separators between them, and no piece
holds the separator. So a statement about a list may go from its first piece to the rest.
-/

namespace Ancestry.Pieces

universe u
variable {α : Type u} [DecidableEq α] {separator : α} {piece before after rest : List α}

/-- A list has no separator, or is a piece without one and a rest that is cut off. -/
theorem cut_induction (separator : α) {motive : List α → Prop}
    (whole : ∀ piece, separator ∉ piece → motive piece)
    (cut : ∀ piece rest, separator ∉ piece → motive rest → motive (piece ++ separator :: rest))
    (list : List α) : motive list := by
  -- The piece in front is taken character by character, so that the rest is what is left.
  suffices general : ∀ front, separator ∉ front → motive (front ++ list) from
    general [] List.not_mem_nil
  induction list with
  | nil =>
    intro front free
    rw [List.append_nil]
    exact whole front free
  | cons first list inductionHypothesis =>
    intro front free
    by_cases separated : first = separator
    · subst separated
      exact cut front list free (inductionHypothesis [] List.not_mem_nil)
    · rw [← List.singleton_append, ← List.append_assoc]
      refine inductionHypothesis (front ++ [first]) fun member => ?_
      rcases List.mem_append.mp member with inside | last
      · exact free inside
      · exact separated (List.mem_singleton.mp last).symm

/-- A list without a separator is one piece. -/
theorem split_whole (whole : separator ∉ piece) : split separator piece = [piece] := by
  induction piece with
  | nil => rfl
  | cons first rest inductionHypothesis =>
    simp only [List.mem_cons, not_or] at whole
    obtain ⟨other, later⟩ := whole
    rw [split, if_neg (Ne.symm other), inductionHypothesis later]

/-- What stands before the first separator is the first piece. -/
theorem split_append (whole : separator ∉ piece) (rest : List α) :
    split separator (piece ++ separator :: rest) = piece :: split separator rest := by
  induction piece with
  | nil => simp [split]
  | cons first piece inductionHypothesis =>
    simp only [List.mem_cons, not_or] at whole
    obtain ⟨other, later⟩ := whole
    rw [List.cons_append, split, if_neg (Ne.symm other), inductionHypothesis later]

/-- Pieces with separators between them are cut into these pieces. -/
theorem split_intercalate {pieces : List (List α)} (whole : ∀ piece ∈ pieces, separator ∉ piece)
    (some : pieces ≠ []) : split separator ([separator].intercalate pieces) = pieces := by
  induction pieces with
  | nil => exact absurd rfl some
  | cons piece rest inductionHypothesis =>
    have first := whole piece List.mem_cons_self
    have others : ∀ piece ∈ rest, separator ∉ piece := fun piece member =>
      whole piece (List.mem_cons_of_mem _ member)
    cases rest with
    | nil => rw [List.intercalate_singleton, split_whole first]
    | cons next rest =>
      rw [List.intercalate_cons_cons, List.append_assoc, List.singleton_append,
        split_append first, inductionHypothesis others (List.cons_ne_nil _ _)]

/-- There is always a first piece. -/
theorem split_ne_nil (separator : α) (list : List α) : split separator list ≠ [] := by
  induction list using cut_induction separator with
  | whole piece free => simp [split_whole free]
  | cut piece rest free _ => simp [split_append free]

/-- What is no separator begins the first piece. -/
theorem split_cons_other {first : α} (other : first ≠ separator) (list : List α) :
    ∃ piece pieces, split separator (first :: list) = (first :: piece) :: pieces := by
  rw [split, if_neg other]
  cases split separator list with
  | nil => exact ⟨[], [], rfl⟩
  | cons piece pieces => exact ⟨piece, pieces, rfl⟩

/-- A separator anywhere cuts a list into the pieces before and after it. -/
theorem split_cut (separator : α) (before after : List α) :
    split separator (before ++ separator :: after) =
      split separator before ++ split separator after := by
  induction before using cut_induction separator with
  | whole piece free => rw [split_append free, split_whole free, List.singleton_append]
  | cut piece rest free inductionHypothesis =>
    rw [List.append_assoc, List.cons_append, split_append free, split_append free,
      inductionHypothesis, List.cons_append]

/-- The pieces with separators between them are the list that was cut. -/
theorem intercalate_split (separator : α) (list : List α) :
    [separator].intercalate (split separator list) = list := by
  induction list using cut_induction separator with
  | whole piece free => rw [split_whole free, List.intercalate_singleton]
  | cut piece rest free inductionHypothesis =>
    rw [split_append free, List.intercalate_cons_of_ne_nil (split_ne_nil separator rest),
      inductionHypothesis, List.append_assoc, List.singleton_append]

/-- A list that does not end in a separator ends in a piece. -/
theorem getLast?_split {list : List α} (filled : list ≠ [])
    (ends : list.getLast? ≠ some separator) :
    ∀ last ∈ (split separator list).getLast?, last ≠ [] := by
  induction list using cut_induction separator with
  | whole piece free =>
    rw [split_whole free]
    rintro last ⟨⟩
    exact filled
  | cut piece rest free inductionHypothesis =>
    have more : rest ≠ [] := by
      rintro rfl
      exact ends List.getLast?_concat
    rw [List.getLast?_append_of_ne_nil _ (List.cons_ne_nil _ _),
      List.getLast?_cons_of_ne_nil more] at ends
    rw [split_append free, List.getLast?_cons_of_ne_nil (split_ne_nil separator rest)]
    exact inductionHypothesis more ends

/-- No piece holds the separator. -/
theorem not_mem_of_split {list : List α} (member : piece ∈ split separator list) :
    separator ∉ piece := by
  induction list using cut_induction separator with
  | whole other free =>
    rw [split_whole free, List.mem_singleton] at member
    exact member ▸ free
  | cut other rest free inductionHypothesis =>
    rw [split_append free] at member
    rcases List.mem_cons.mp member with rfl | later
    · exact free
    · exact inductionHypothesis later

/-- A cut at the first separator. -/
theorem cutFirst_append (free : separator ∉ before) (after : List α) :
    cutFirst separator (before ++ separator :: after) = (before, some after) := by
  induction before with
  | nil => simp [cutFirst]
  | cons first before inductionHypothesis =>
    simp only [List.mem_cons, not_or] at free
    rw [List.cons_append, cutFirst, if_neg (Ne.symm free.1), inductionHypothesis free.2]

/-- Nothing is cut off where there is no separator. -/
theorem cutFirst_whole (free : separator ∉ before) :
    cutFirst separator before = (before, none) := by
  induction before with
  | nil => rfl
  | cons first before inductionHypothesis =>
    simp only [List.mem_cons, not_or] at free
    rw [cutFirst, if_neg (Ne.symm free.1), inductionHypothesis free.2]

/-- What stands before the first separator has none and stands in the list. -/
theorem cutFirst_before (separator : α) (list : List α) :
    separator ∉ (cutFirst separator list).1 ∧ (cutFirst separator list).1 ⊆ list := by
  induction list using cut_induction separator with
  | whole piece free =>
    rw [cutFirst_whole free]
    exact ⟨free, fun _ member => member⟩
  | cut piece rest free _ =>
    rw [cutFirst_append free]
    exact ⟨free, List.subset_append_left _ _⟩

/-- A list without the separator is not cut. -/
theorem cutLast?_whole (free : separator ∉ after) : cutLast? separator after = none := by
  induction after with
  | nil => rfl
  | cons first after inductionHypothesis =>
    simp only [List.mem_cons, not_or] at free
    rw [cutLast?, inductionHypothesis free.2]
    exact if_neg (Ne.symm free.1)

/-- A cut at the last separator. -/
theorem cutLast?_append (before : List α) (free : separator ∉ after) :
    cutLast? separator (before ++ separator :: after) = some (before, after) := by
  induction before with
  | nil =>
    rw [List.nil_append, cutLast?, cutLast?_whole free]
    exact if_pos rfl
  | cons first before inductionHypothesis => rw [List.cons_append, cutLast?, inductionHypothesis]

/-- A separator that stands before the last one stays. -/
example : cutLast? 0 [1, 0, 2, 0, 3] = some ([1, 0, 2], [3]) := by decide

/-- Only a list without the separator is not cut. -/
theorem not_mem_of_cutLast? {list : List α} (uncut : cutLast? separator list = none) :
    separator ∉ list := by
  induction list with
  | nil => exact List.not_mem_nil
  | cons first list inductionHypothesis =>
    rw [cutLast?] at uncut
    split at uncut
    · exact absurd uncut (by simp)
    · rename_i absent
      split at uncut
      · exact absurd uncut (by simp)
      · rename_i other
        simp [inductionHypothesis absent, Ne.symm other]

/-- A cut at the last separator takes the list apart there. -/
theorem eq_of_cutLast? {list : List α} (cut : cutLast? separator list = some (before, after)) :
    list = before ++ separator :: after ∧ separator ∉ after := by
  induction list generalizing before with
  | nil => simp [cutLast?] at cut
  | cons first list inductionHypothesis =>
    rw [cutLast?] at cut
    split at cut
    · rename_i front back found
      obtain ⟨rfl, rfl⟩ : first :: front = before ∧ back = after := by simpa using cut
      obtain ⟨rfl, free⟩ := inductionHypothesis found
      exact ⟨rfl, free⟩
    · rename_i absent
      split at cut
      · rename_i same
        obtain ⟨rfl, rfl⟩ : [] = before ∧ list = after := by simpa using cut
        exact ⟨by rw [same]; rfl, not_mem_of_cutLast? absent⟩
      · exact absurd cut (by simp)

/-- What follows a beginning that is there. -/
theorem afterStart?_append (start rest : List α) :
    afterStart? start (start ++ rest) = some rest := by
  induction start with
  | nil => rfl
  | cons first start inductionHypothesis => simp [afterStart?, inductionHypothesis]

/-- Nothing follows a beginning that differs from what is there. -/
theorem afterStart?_apart {start list : List α}
    (apart : (start.zip list).any fun pair => pair.1 != pair.2) (rest : List α) :
    afterStart? start (list ++ rest) = none := by
  induction start generalizing list with
  | nil => simp at apart
  | cons first start inductionHypothesis =>
    cases list with
    | nil => simp at apart
    | cons x list =>
      rw [List.cons_append, afterStart?]
      by_cases same : first = x
      · rw [if_pos same]
        refine inductionHypothesis ?_
        simpa [same] using apart
      · rw [if_neg same]

/-- What follows a beginning follows it in the list. -/
theorem eq_of_afterStart? {start list : List α} (found : afterStart? start list = some rest) :
    list = start ++ rest := by
  induction start generalizing list with
  | nil => simpa [afterStart?] using found
  | cons first start inductionHypothesis =>
    cases list with
    | nil => simp [afterStart?] at found
    | cons x list =>
      rw [afterStart?] at found
      split at found
      · rename_i same
        rw [same, inductionHypothesis found, List.cons_append]
      · simp at found

/-- A beginning is there when something follows it. -/
theorem afterStart?_eq_some {start list : List α} :
    afterStart? start list = some rest ↔ list = start ++ rest := by
  constructor
  · exact eq_of_afterStart?
  · rintro rfl
    exact afterStart?_append start rest

/-- An ending is there when something precedes it. -/
theorem beforeEnd?_eq_some {ending list : List α} :
    beforeEnd? ending list = some rest ↔ list = rest ++ ending := by
  rw [beforeEnd?, Option.map_eq_some_iff]
  constructor
  · rintro ⟨reversed, found, rfl⟩
    have whole := congrArg List.reverse (eq_of_afterStart? found)
    simpa using whole
  · rintro rfl
    exact ⟨rest.reverse, by rw [List.reverse_append, afterStart?_append], List.reverse_reverse rest⟩

/-- A word is found in a list when it stands anywhere in it. -/
theorem cutWord?_isSome {word list : List α} :
    (cutWord? word list).isSome = true ↔ word <:+: list := by
  induction list with
  | nil =>
    rw [cutWord?, Option.isSome_map, List.infix_nil]
    cases word <;> simp [afterStart?]
  | cons x list inductionHypothesis =>
    rw [cutWord?, List.infix_cons_iff, ← inductionHypothesis]
    cases begins : afterStart? word (x :: list) with
    | some after =>
      have front : word <+: x :: list := ⟨after, (eq_of_afterStart? begins).symm⟩
      simp [front]
    | none =>
      have other : ¬ word <+: x :: list := by
        rintro ⟨after, whole⟩
        rw [← whole, afterStart?_append] at begins
        cases begins
      simp [other]

/-- A list is cut at a word that does not stand in it before. -/
theorem cutWord?_first {word : List α} (filled : word ≠ [])
    (first : ¬ word <:+: before ++ word.dropLast) (after : List α) :
    cutWord? word (before ++ word ++ after) = some (before, after) := by
  obtain ⟨c, rest, rfl⟩ := List.exists_cons_of_ne_nil filled
  induction before with
  | nil =>
    rw [List.nil_append, List.cons_append, cutWord?, ← List.cons_append, afterStart?_append]
  | cons x before inductionHypothesis =>
    have behind : ¬ c :: rest <:+: before ++ (c :: rest).dropLast := fun inside =>
      first (inside.trans (List.suffix_cons x _).isInfix)
    have absent : afterStart? (c :: rest) (x :: (before ++ c :: rest ++ after)) = none := by
      rw [Option.eq_none_iff_forall_ne_some]
      intro more found
      have front : c :: rest <+: x :: (before ++ (c :: rest).dropLast) := by
        apply List.prefix_of_prefix_length_le ⟨more, (eq_of_afterStart? found).symm⟩
        · have begins : before ++ (c :: rest).dropLast <+: before ++ c :: rest :=
            (List.prefix_append_right_inj before).mpr (List.dropLast_prefix _)
          exact List.cons_prefix_cons.mpr ⟨rfl, begins.trans (List.prefix_append _ after)⟩
        · simp
      exact first front.isInfix
    rw [List.cons_append, List.cons_append, cutWord?, absent, inductionHypothesis behind]
    rfl

/-- Two separators in a row are not found where there is none. -/
theorem cutWord?_whole (free : separator ∉ piece) :
    cutWord? [separator, separator] piece = none := by
  induction piece with
  | nil => rfl
  | cons first piece inductionHypothesis =>
    simp only [List.mem_cons, not_or] at free
    rw [cutWord?, afterStart?, if_neg free.1, inductionHypothesis free.2]
    rfl

/-- Two separators in a row are found behind the first piece, or in what follows it. -/
theorem cutWord?_append (free : separator ∉ piece) (rest : List α) :
    (cutWord? [separator, separator] (piece ++ separator :: rest)).map (·.2) =
      if rest.head? = some separator then some rest.tail
      else (cutWord? [separator, separator] rest).map (·.2) := by
  induction piece with
  | nil =>
    rw [List.nil_append, cutWord?, afterStart?, if_pos rfl]
    cases rest with
    | nil => rfl
    | cons next rest =>
      by_cases same : separator = next
      · subst same
        simp [afterStart?]
      · simp [afterStart?, same, Ne.symm same, Function.comp_def]
  | cons first piece inductionHypothesis =>
    simp only [List.mem_cons, not_or] at free
    rw [List.cons_append, cutWord?, afterStart?, if_neg free.1, ← inductionHypothesis free.2]
    simp [Function.comp_def]

end Ancestry.Pieces
