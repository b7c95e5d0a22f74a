import Ancestry.Proofs.Revision.Grammar

/-!
# What is an argument of a log

An argument is cut at its first two dots, and a caret in front is taken off before. No revision
begins with a caret or a dot and none holds two dots side by side, so what stands in front of the
separator is read as it was written, unless it ends in a dot itself: then the cut is made one dot
too early, and what is left behind it begins with a dot and is no revision.
-/

namespace Ancestry.Revision

variable {base chars : List Char} {suffixes : List Suffix}

/-- No suffix holds a dot. -/
theorem Suffix.Fits.dotless {suffix : Suffix} (fits : suffix.Fits) : '.' ∉ suffix.chars := by
  cases suffix with
  | caret => decide
  | tilde digits =>
    intro member
    rcases List.mem_cons.mp member with tilde | digit
    · exact absurd tilde (by decide)
    · exact absurd (fits.2.1 _ digit) (by decide)

/-- A name does not begin with a dot, and no two dots stand side by side in it. -/
theorem IsBase.undotted (isBase : IsBase base) :
    base.head? ≠ some '.' ∧ ¬ ['.', '.'] <:+: base := by
  rcases isBase with rfl | named
  · decide
  · exact ⟨named.begins.1, named.parts.2.1⟩

/-- A revision begins neither with a caret nor with a dot. -/
theorem Written.head (written : Written chars base suffixes) :
    ∃ c rest, chars = c :: rest ∧ c ≠ '^' ∧ c ≠ '.' := by
  obtain ⟨rfl, isBase, _⟩ := written
  obtain ⟨filled, plain⟩ := isBase.plain
  obtain ⟨c, rest, rfl⟩ := List.exists_cons_of_ne_nil filled
  refine ⟨c, _, rfl, (plain c List.mem_cons_self).2.2, ?_⟩
  rintro rfl
  exact isBase.undotted.1 rfl

/-- No two dots stand side by side in a revision. -/
theorem Written.undotted (written : Written chars base suffixes) :
    ¬ ['.', '.'] <:+: chars := by
  obtain ⟨rfl, isBase, fits⟩ := written
  have dotless : '.' ∉ suffixes.flatMap Suffix.chars := by
    intro member
    obtain ⟨suffix, present, inside⟩ := List.mem_flatMap.mp member
    exact (fits suffix present).dotless inside
  rw [List.infix_append_iff]
  rintro (inName | inSuffixes | ⟨front, back, dots, ends, begins⟩)
  · exact isBase.undotted.2 inName
  · exact dotless (inSuffixes.subset List.mem_cons_self)
  · cases back with
    | nil =>
      rw [List.append_nil] at dots
      exact isBase.undotted.2 (dots ▸ ends.isInfix)
    | cons c back =>
      have dot : c ∈ ['.', '.'] := dots ▸ List.mem_append_right front List.mem_cons_self
      obtain rfl : c = '.' := by simpa using dot
      exact dotless (begins.subset List.mem_cons_self)

/-- What is read as a revision may be written. -/
theorem written_of_parse {text : String} {revision : Revision}
    (read : parse text = .ok revision) : ∃ base suffixes, Written text.toList base suffixes :=
  written_of_parseWithin read

end Ancestry.Revision

namespace Ancestry.RevisionArg

open Revision (Written written_of_parse)

variable {text front back : String} {older newer revision : Revision}

/-- A side that is a revision is read as this revision. -/
theorem parseSide_of_parse (read : Revision.parse text = .ok revision) :
    parseSide text.toList = .ok revision := by
  obtain ⟨base, suffixes, written⟩ := written_of_parse read
  obtain ⟨c, rest, chars, _⟩ := written.head
  have filled : ¬ text.toList.isEmpty := by simp [chars]
  rw [parseSide, if_neg filled, String.ofList_toList, read]

/-- No side begins with a dot. -/
theorem parseSide_dot (rest : List Char) (revision : Revision) :
    parseSide ('.' :: rest) ≠ .ok revision := by
  intro read
  have filled : ¬ ('.' :: rest).isEmpty := by simp
  rw [parseSide, if_neg filled] at read
  obtain ⟨base, suffixes, written⟩ := written_of_parse read
  obtain ⟨c, others, chars, _, plain⟩ := written.head
  rw [String.toList_ofList] at chars
  exact plain (List.cons.inj chars).1.symm

/-- Nothing is excluded where no caret stands in front. -/
theorem noCaret {chars : List Char} (plain : chars.head? ≠ some '^') :
    Pieces.afterStart? ['^'] chars = none := by
  rw [Option.eq_none_iff_forall_ne_some]
  intro rest found
  rw [Pieces.eq_of_afterStart? found] at plain
  exact plain rfl

/-- What does not begin with a caret is cut at the first two dots. -/
theorem parse_cut {front back : List Char} (plain : front.head? ≠ some '^')
    (first : ¬ ['.', '.'] <:+: front ++ ['.']) (whole : text.toList = front ++ ['.', '.'] ++ back) :
    parse text = do
      let older ← parseSide front
      return .range older (← parseSide back) := by
  have dots : text.toList.head? ≠ some '^' := by
    cases front with
    | nil => simp [whole]
    | cons c front => simpa [whole] using plain
  rw [parse, noCaret dots, whole]
  simp only
  rw [Pieces.cutWord?_first (by decide) first]
  simp only
  cases parseSide front with
  | error failure => rfl
  | ok older => cases parseSide back <;> rfl

/-- A revision that does not end in a dot is the older side of what follows it. -/
theorem parse_range (read : Revision.parse front = .ok older)
    (closed : front.toList.getLast? ≠ some '.') (other : parseSide back.toList = .ok newer) :
    parse (front ++ ".." ++ back) = .ok (.range older newer) := by
  obtain ⟨base, suffixes, written⟩ := written_of_parse read
  obtain ⟨c, rest, chars, caret, _⟩ := written.head
  have first : ¬ ['.', '.'] <:+: front.toList ++ ['.'] := by
    rw [List.infix_concat_iff, List.suffix_concat_iff]
    rintro ((empty | ⟨dots, same, ends⟩) | inside)
    · cases empty
    · obtain rfl : ['.'] = dots := List.append_cancel_right same
      obtain ⟨before, whole⟩ := ends
      exact closed (whole ▸ List.getLast?_concat)
    · exact written.undotted inside
  have plain : front.toList.head? ≠ some '^' := by simpa [chars] using caret
  have whole : (front ++ ".." ++ back).toList = front.toList ++ ['.', '.'] ++ back.toList := by
    simp [String.toList_append]
  rw [parse_cut plain first whole, parseSide_of_parse read, other]
  rfl

/-- Nothing is read where a revision that ends in a dot stands before two dots. -/
theorem parse_behind_dot (read : Revision.parse front = .ok older)
    (dot : front.toList.getLast? = some '.') (back : String) :
    ∃ failure, parse (front ++ ".." ++ back) = .error failure := by
  obtain ⟨base, suffixes, written⟩ := written_of_parse read
  obtain ⟨c, rest, chars, caret, _⟩ := written.head
  obtain ⟨before, whole⟩ := List.getLast?_eq_some_iff.mp dot
  have first : ¬ ['.', '.'] <:+: before ++ ['.'] := whole ▸ written.undotted
  have plain : before.head? ≠ some '^' := by
    cases before with
    | nil => simp
    | cons x before =>
      rw [chars] at whole
      simpa [← (List.cons.inj whole).1] using caret
  have cut : (front ++ ".." ++ back).toList = before ++ ['.', '.'] ++ ('.' :: back.toList) := by
    simp [String.toList_append, whole]
  rw [parse_cut plain first cut]
  cases parseSide before with
  | error failure => exact ⟨failure, rfl⟩
  | ok older =>
    cases side : parseSide ('.' :: back.toList) with
    | error failure => exact ⟨failure, rfl⟩
    | ok newer => exact absurd side (parseSide_dot _ _)

/-- A revision alone is included. -/
theorem parse_included (read : Revision.parse text = .ok revision) :
    parse text = .ok (.included revision) := by
  obtain ⟨base, suffixes, written⟩ := written_of_parse read
  obtain ⟨c, rest, chars, caret, _⟩ := written.head
  have plain : text.toList.head? ≠ some '^' := by simpa [chars] using caret
  have uncut : Pieces.cutWord? ['.', '.'] text.toList = none := by
    rw [← Option.not_isSome_iff_eq_none, Pieces.cutWord?_isSome]
    exact written.undotted
  rw [parse, noCaret plain]
  simp only
  rw [uncut, read]
  rfl

/-- A revision behind a caret is excluded. -/
theorem parse_excluded (read : Revision.parse text = .ok revision) :
    parse ("^" ++ text) = .ok (.excluded revision) := by
  have rest : Pieces.afterStart? ['^'] ("^" ++ text).toList = some text.toList := by
    rw [String.toList_append]
    exact Pieces.afterStart?_append ['^'] text.toList
  rw [parse, rest]
  simp only
  rw [String.ofList_toList, read]
  rfl

/-- Two revisions with two dots between them are the range from the one to the other exactly if
the first one does not end in a dot. The same holds where nothing stands behind the dots, which
means what is checked out. Behind a dot the two dots are not found, and nothing is read, whatever
stands behind them. A revision behind two dots, behind a caret or alone is always read.

Proof: an argument is cut at the first two dots. No revision has two dots in it, so that they are
those between the two sides unless the dot at the end of the first one makes them begin earlier. -/
theorem parse_sides (front back : String) (frontRead : Revision.parse front = .ok older)
    (backRead : Revision.parse back = .ok newer) :
    (parse (front ++ ".." ++ back) = .ok (.range older newer) ↔
        front.toList.getLast? ≠ some '.') ∧
      (parse (front ++ "..") = .ok (.range older .head) ↔ front.toList.getLast? ≠ some '.') ∧
      (front.toList.getLast? = some '.' →
        ∀ other, ∃ failure, parse (front ++ ".." ++ other) = .error failure) ∧
      parse (".." ++ back) = .ok (.range .head newer) ∧
      parse ("^" ++ front) = .ok (.excluded older) ∧
      parse front = .ok (.included older) := by
  have between {other : String} {newer : Revision} (side : parseSide other.toList = .ok newer) :
      parse (front ++ ".." ++ other) = .ok (.range older newer) ↔
        front.toList.getLast? ≠ some '.' := by
    constructor
    · intro parsed dot
      obtain ⟨failure, refused⟩ := parse_behind_dot frontRead dot other
      cases parsed.symm.trans refused
    · exact fun closed => parse_range frontRead closed side
  have openEnd : front ++ ".." = front ++ ".." ++ "" := String.append_empty.symm
  have openStart : parse (".." ++ back) = .ok (.range .head newer) := by
    have none : ¬ ['.', '.'] <:+: [] ++ ['.'] := by decide
    rw [parse_cut (by simp) none String.toList_append, parseSide_of_parse backRead]
    rfl
  refine ⟨between (parseSide_of_parse backRead), ?_, parse_behind_dot frontRead, openStart,
    parse_excluded frontRead, parse_included frontRead⟩
  rw [openEnd]
  exact between rfl

/-- A dot within a name and steps on both sides. -/
theorem parse_sides_stepped :
    ∃ older newer, Revision.parse "v1.0~2" = .ok older ∧ Revision.parse "x/y^" = .ok newer ∧
      parse ("v1.0~2" ++ ".." ++ "x/y^") = .ok (.range older newer) ∧
      parse ("v1.0~2" ++ "..") = .ok (.range older .head) ∧
      parse (".." ++ "x/y^") = .ok (.range .head newer) ∧
      parse ("^" ++ "v1.0~2") = .ok (.excluded older) ∧
      parse "v1.0~2" = .ok (.included older) := by
  have valid : BranchName.isValid "v1.0".toList = true := by decide +kernel
  have written : Written "v1.0~2".toList "v1.0".toList [.tilde ['2']] := by
    refine ⟨by decide, .inr (BranchName.isValid_iff.mp valid), List.forall_mem_singleton.mpr ?_⟩
    exact ⟨by decide, by simp, by decide +kernel⟩
  obtain ⟨branch, means⟩ := written.isBase.exists_means
  have front := Revision.parse_written written means
  have back : Revision.parse "x/y^" = .ok (.parent (.name ⟨"x/y", by decide +kernel⟩)) := by
    decide +kernel
  have closed : "v1.0~2".toList.getLast? ≠ some '.' := by decide
  have sides := parse_sides "v1.0~2" "x/y^" front back
  exact ⟨_, _, front, back, sides.1.mpr closed, sides.2.1.mpr closed, sides.2.2.2⟩

/-- A name that ends in a dot and another name are read, but not with two dots between them. -/
theorem dotted_side_refused :
    ∃ older newer, Revision.parse "v." = .ok older ∧ Revision.parse "b" = .ok newer ∧
      parse "v...b" = .error (.fault (.unknownRevision ".b")) := by
  refine ⟨.name ⟨"v.", by decide +kernel⟩, .name ⟨"b", by decide +kernel⟩, ?_, ?_, ?_⟩
  · decide +kernel
  · decide +kernel
  · decide +kernel

end Ancestry.RevisionArg
