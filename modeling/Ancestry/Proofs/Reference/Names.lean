import Ancestry.Proofs.Text.Cutting
import Ancestry.Reference.Name

/-!
# What names a branch

A branch is named by characters that are not empty, of which none has another meaning, that do
not begin or end with a slash or like a hidden or a locked file, and in which some pairs of
characters do not stand side by side.
-/

namespace Ancestry.BranchName

/-- Characters that name a branch. -/
structure Named (chars : List Char) : Prop where
  filled : chars ≠ []
  begins : chars.head? ≠ some '.' ∧ chars.head? ≠ some '/'
  ends : chars.getLast? ≠ some '/' ∧ ¬ ".lock".toList <:+ chars
  parts : ¬ ['/', '.'] <:+: chars ∧ ¬ ['.', '.'] <:+: chars ∧ ¬ ['@', '\x7b'] <:+: chars
  plain : ∀ c ∈ chars, ' ' < c ∧ c ≠ '\x7f' ∧ c ∉ ['*', ':', '?', '[', '\\', '~', '^']

/-- The test for a word within a text. -/
theorem containsWord_iff {word chars : List Char} :
    containsWord word chars = true ↔ word <:+: chars := Pieces.cutWord?_isSome

/-- A character is reserved when it is a control, a space or one with another meaning. -/
theorem isReserved_iff {c : Char} : isReserved c = false ↔
    ' ' < c ∧ c ≠ '\x7f' ∧ c ∉ ['*', ':', '?', '[', '\\', '~', '^'] := by
  have above : ' ' < c ↔ ¬ c.toNat ≤ 0x20 := by
    rw [Char.lt_def, UInt32.lt_iff_toNat_lt, Nat.not_le]
    rfl
  rw [above]
  simp only [isReserved, Bool.or_eq_false_iff, decide_eq_false_iff_not, List.contains_eq_mem,
    List.mem_cons, List.not_mem_nil, or_false]
  grind

/-- The checks of a branch name let exactly these characters pass. -/
theorem isValid_iff {chars : List Char} : isValid chars = true ↔ Named chars := by
  have locked :
      (Pieces.beforeEnd? ".lock".toList chars).isSome = true ↔ ".lock".toList <:+ chars := by
    rw [Option.isSome_iff_exists]
    simp only [Pieces.beforeEnd?_eq_some]
    exact ⟨fun ⟨rest, whole⟩ => ⟨rest, whole.symm⟩, fun ⟨rest, whole⟩ => ⟨rest, whole.symm⟩⟩
  have parts : badParts chars = false ↔ (chars.head? ≠ some '.' ∧ chars.head? ≠ some '/') ∧
      chars.getLast? ≠ some '/' ∧ ¬ ['/', '.'] <:+: chars := by
    rw [← Bool.not_eq_true]
    simp only [badParts, Bool.or_eq_true, decide_eq_true_eq, containsWord_iff]
    tauto
  have words : badWords chars = false ↔ ¬ ['.', '.'] <:+: chars ∧ ¬ ['@', '\x7b'] <:+: chars ∧
      ¬ ".lock".toList <:+ chars := by
    rw [← Bool.not_eq_true]
    simp only [badWords, Bool.or_eq_true, containsWord_iff, locked]
    tauto
  have plain : chars.any isReserved = false ↔ ∀ c ∈ chars, isReserved c = false := by simp
  simp only [isValid, Bool.and_eq_true, Bool.not_eq_true', parts, words, plain, isReserved_iff,
    List.isEmpty_eq_false_iff]
  constructor
  · rintro ⟨⟨⟨filled, begins, slash, dot⟩, dots, brace, locks⟩, reserved⟩
    exact ⟨filled, begins, ⟨slash, locks⟩, ⟨dot, dots, brace⟩, reserved⟩
  · rintro ⟨filled, begins, ⟨slash, locks⟩, ⟨dot, dots, brace⟩, reserved⟩
    exact ⟨⟨⟨filled, begins, slash, dot⟩, dots, brace, locks⟩, reserved⟩

/-- Branches with the same text are the same. -/
theorem text_injective : Function.Injective text := by
  rintro ⟨left, _⟩ ⟨right, _⟩ same
  cases same
  rfl

/-- A branch is found under its own text only. -/
theorem parse_iff {text : String} {branch : BranchName} :
    parse text = .ok branch ↔ branch.text = text := by
  constructor
  · intro read
    rw [parse] at read
    split at read
    · cases read
    · split at read
      · exact congrArg BranchName.text (Except.ok.inj read).symm
      · cases read
  · rintro rfl
    have filled : branch.text ≠ "" := fun empty =>
      (isValid_iff.mp branch.valid).filled (by rw [empty]; rfl)
    rw [parse, if_neg filled, dif_pos branch.valid]

/-- No part between slashes begins with a dot. -/
def Dotless (chars : List Char) : Prop := chars.head? ≠ some '.' ∧ ¬ ['/', '.'] <:+: chars

/-- The names of branches are of that kind. -/
theorem dotless (branch : BranchName) : Dotless branch.text.toList := by
  have named := isValid_iff.mp branch.valid
  exact ⟨named.begins.1, named.parts.1⟩

/-- So is what they begin with. -/
theorem Dotless.front {front : List Char} (dotless : Dotless chars) (begins : front <+: chars) :
    Dotless front := by
  refine ⟨fun first => dotless.1 ?_, fun inside => dotless.2 (inside.trans begins.isInfix)⟩
  obtain ⟨rest, rfl⟩ := begins
  rw [List.head?_append, first]
  rfl

/-- Where no part begins with a dot no piece does. -/
theorem Dotless.pieces (dotless : Dotless chars) :
    ∀ piece ∈ Pieces.split '/' chars, piece.head? ≠ some '.' := by
  induction chars using Pieces.cut_induction '/' with
  | whole piece free =>
    rw [Pieces.split_whole free]
    exact List.forall_mem_singleton.mpr dotless.1
  | cut piece rest free inductionHypothesis =>
    obtain ⟨begins, parts⟩ := dotless
    rw [Pieces.split_append free, List.forall_mem_cons]
    refine ⟨fun first => begins ?_, inductionHypothesis ⟨fun first => parts ?_, fun inside =>
      parts ?_⟩⟩
    · rw [List.head?_append, first]
      rfl
    · obtain ⟨more, rfl⟩ := List.head?_eq_some_iff.mp first
      exact ⟨piece, more, by simp⟩
    · exact inside.trans ((List.suffix_cons '/' rest).trans (List.suffix_append piece _)).isInfix

end Ancestry.BranchName
