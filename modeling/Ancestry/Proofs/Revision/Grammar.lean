import Mathlib.Data.List.Induction
import Ancestry.Proofs.Reference.Names
import Ancestry.Proofs.Text.Numbers
import Ancestry.Revision.Basic

/-!
# What is a revision

A revision is a name with suffixes behind it: carets, and tildes with digits. Steps are taken off
from the right, so that the first suffix is applied first. No suffix is part of a name, since a
name holds no caret and no tilde; so nothing else is read, and what is displayed is read again.
-/

namespace Ancestry.CharSet

/-- A table is read character by character, however it is spelled. -/
theorem ofTable_eq {table : String} {chars : List Char} (spelled : table = String.ofList chars) :
    ofTable table = ⟨(items [] chars).flatMap rangesOfItem⟩ := by
  rw [ofTable, spelled, String.toList_ofList]

/-- The digits of all scripts begin with the decimal ones. -/
theorem contains_decimalNumber {c : Char} (low : c.toNat ≤ 0x39) :
    Unicode.Category.decimalNumber.contains c = decide (0x30 ≤ c.toNat) := by
  -- the text of the table is a literal, which unification spells out as characters
  have first : Unicode.Category.decimalNumber.ranges.head? = some ⟨0x30, 0x39⟩ := by
    rw [Unicode.Category.decimalNumber, ofTable_eq rfl]
    decide +kernel
  obtain ⟨rest, whole⟩ := List.head?_eq_some_iff.mp first
  rw [contains, containsPoint, whole, rangesContain, if_pos low]
  split
  · rename_i below
    exact (decide_eq_false (Nat.not_le.mpr below)).symm
  · rename_i above
    exact (decide_eq_true (Nat.not_lt.mp above)).symm

end Ancestry.CharSet

namespace Ancestry.Revision

/-- What may stand behind a name. -/
inductive Suffix where
  | caret
  | tilde (digits : List Char)
  deriving DecidableEq

namespace Suffix

/-- A suffix as it is written. -/
def chars : Suffix → List Char
  | caret => ['^']
  | tilde digits => '~' :: digits

/-- A tilde takes at least one decimal digit, and the number has to fit a machine word. -/
def Fits : Suffix → Prop
  | caret => True
  | tilde digits => digits ≠ [] ∧ (∀ c ∈ digits, c.isDigit = true) ∧
      Nat.ofDigitChars 10 digits 0 ≤ Text.wordMax

/-- The step that a suffix adds to a revision. -/
def apply (base : Revision) : Suffix → Revision
  | caret => .parent base
  | tilde digits => .ancestor base (Nat.ofDigitChars 10 digits 0)

/-- A suffix with as few digits as its number takes. -/
def canonical : Suffix → Suffix
  | caret => caret
  | tilde digits => tilde (Nat.toDigits 10 (Nat.ofDigitChars 10 digits 0))

/-- Every suffix takes characters. -/
theorem length_chars_pos (suffix : Suffix) : 0 < suffix.chars.length := by
  cases suffix <;> exact Nat.succ_pos _

/-- Fewer digits still fit. -/
theorem Fits.canonical {suffix : Suffix} (fits : suffix.Fits) : suffix.canonical.Fits := by
  cases suffix with
  | caret => trivial
  | tilde digits =>
    refine ⟨Nat.toDigits_ne_nil, fun c => Nat.isDigit_of_mem_toDigits (by decide) (by decide), ?_⟩
    rw [Nat.ofDigitChars_toDigits (by decide) (by decide)]
    exact fits.2.2

/-- Fewer digits make the same step. -/
theorem apply_canonical (base : Revision) (suffix : Suffix) :
    suffix.canonical.apply base = suffix.apply base := by
  cases suffix with
  | caret => rfl
  | tilde digits => rw [canonical, apply, Nat.ofDigitChars_toDigits (by decide) (by decide), apply]

/-- A step is displayed behind what it starts from. -/
theorem display_apply (base : Revision) (suffix : Suffix) :
    (suffix.apply base).display.toList = base.display.toList ++ suffix.canonical.chars := by
  cases suffix with
  | caret =>
    rw [apply, display, String.toList_append]
    rfl
  | tilde digits =>
    rw [apply, display, Text.digits, String.toList_append, String.toList_append,
      String.toList_ofList, String.toList_ofList, List.append_assoc]
    rfl

end Suffix

/-- What may stand in front of the suffixes. -/
def IsBase (base : List Char) : Prop := base = ['@'] ∨ BranchName.Named base

/-- The branch that is meant; the sign alone is what is checked out. -/
def Means (base : List Char) (branch : BranchName) : Prop :=
  if base = ['@'] then branch = .head else branch.text.toList = base

/-- A revision as it may be written: a name with suffixes behind it. -/
structure Written (chars base : List Char) (suffixes : List Suffix) : Prop where
  whole : chars = base ++ suffixes.flatMap Suffix.chars
  isBase : IsBase base
  fits : ∀ suffix ∈ suffixes, suffix.Fits

variable {base chars digits : List Char} {branch : BranchName} {revision : Revision}
  {suffixes : List Suffix} {most : Nat}

/-- A name is filled and holds neither blanks nor the beginnings of suffixes. -/
theorem IsBase.plain (isBase : IsBase base) :
    base ≠ [] ∧ ∀ c ∈ base, ' ' < c ∧ c ≠ '~' ∧ c ≠ '^' := by
  rcases isBase with rfl | named
  · simp
  · refine ⟨named.filled, fun c member => ?_⟩
    obtain ⟨above, _, other⟩ := named.plain c member
    simp only [List.mem_cons, List.not_mem_nil, or_false, not_or] at other
    exact ⟨above, other.2.2.2.2.2.1, other.2.2.2.2.2.2⟩

/-- A name means a branch. -/
theorem IsBase.exists_means (isBase : IsBase base) : ∃ branch, Means base branch := by
  by_cases sign : base = ['@']
  · exact ⟨.head, by rw [Means, if_pos sign]⟩
  · have valid : BranchName.isValid (String.ofList base).toList = true := by
      rw [String.toList_ofList]
      exact BranchName.isValid_iff.mpr (isBase.resolve_left sign)
    exact ⟨⟨String.ofList base, valid⟩, by rw [Means, if_neg sign, String.toList_ofList]⟩

/-- Only names mean branches. -/
theorem Means.isBase (means : Means base branch) : IsBase base := by
  rw [Means] at means
  split at means
  · rename_i sign
    exact .inl sign
  · exact .inr (means ▸ BranchName.isValid_iff.mp branch.valid)

/-- A name is read as the branch that is meant, and nothing else is read. -/
theorem parseName_iff : parseName (String.ofList base) = .ok revision ↔
    ∃ branch, Means base branch ∧ revision = .name branch := by
  have meant (branch : BranchName) :
      BranchName.parse (unaliased (String.ofList base)) = .ok branch ↔ Means base branch := by
    have sign : String.ofList base = "@" ↔ base = ['@'] := by
      rw [← String.toList_inj, String.toList_ofList]
      rfl
    rw [BranchName.parse_iff, unaliased, Means]
    simp only [sign]
    split
    · exact BranchName.text_injective.eq_iff (b := .head)
    · rw [← String.toList_inj, String.toList_ofList]
  simp only [← meant]
  rw [parseName]
  cases BranchName.parse (unaliased (String.ofList base)) with
  | ok branch => simp [eq_comm]
  | error fault => simp

/-- What is written is one line. -/
theorem Written.isLine (written : Written chars base suffixes) : isLine chars = true := by
  obtain ⟨rfl, isBase, fits⟩ := written
  obtain ⟨filled, plain⟩ := isBase.plain
  have whole : '\n' ∉ base ++ suffixes.flatMap Suffix.chars := by
    intro member
    rcases List.mem_append.mp member with front | back
    · exact absurd (plain _ front).1 (by decide)
    · obtain ⟨suffix, present, inside⟩ := List.mem_flatMap.mp back
      cases suffix with
      | caret => exact absurd inside (by decide)
      | tilde digits =>
        rcases List.mem_cons.mp inside with tilde | digit
        · exact absurd tilde (by decide)
        · exact absurd ((fits _ present).2.1 _ digit) (by decide)
  simp [Revision.isLine, filled, List.contains_eq_mem, whole]

/-- The suffixes in front of the last one are written behind the same name. -/
theorem Written.front {suffix : Suffix} (written : Written chars base (suffixes ++ [suffix])) :
    Written (base ++ suffixes.flatMap Suffix.chars) base suffixes ∧ suffix.Fits ∧
      chars = base ++ suffixes.flatMap Suffix.chars ++ suffix.chars := by
  refine ⟨⟨rfl, written.isBase, fun other member => ?_⟩, ?_, ?_⟩
  · exact written.fits other (List.mem_append_left _ member)
  · exact written.fits suffix (List.mem_append_right _ List.mem_cons_self)
  · rw [written.whole, List.flatMap_append, List.flatMap_singleton, List.append_assoc]

/-- A further suffix may be written behind the others. -/
theorem Written.append (written : Written chars base suffixes) {suffix : Suffix}
    (fits : suffix.Fits) : Written (chars ++ suffix.chars) base (suffixes ++ [suffix]) := by
  refine ⟨?_, written.isBase, fun other member => ?_⟩
  · rw [written.whole, List.flatMap_append, List.flatMap_singleton, List.append_assoc]
  · rcases List.mem_append.mp member with front | last
    · exact written.fits other front
    · exact List.mem_singleton.mp last ▸ fits

/-- No caret is taken off what ends in no caret. -/
theorem beforeCaret?_eq_none (ends : chars.getLast? ≠ some '^') : beforeCaret? chars = none := by
  rw [beforeCaret?]
  cases found : Pieces.beforeEnd? ['^'] chars with
  | none => rfl
  | some front =>
    obtain rfl := Pieces.beforeEnd?_eq_some.mp found
    exact absurd List.getLast?_concat ends

/-- Nothing is taken off a name. -/
theorem parseWithin_base (isBase : IsBase base) :
    parseWithin most base = parseName (String.ofList base) := by
  obtain ⟨_, plain⟩ := isBase.plain
  cases most with
  | zero => rfl
  | succ most =>
    have noCaret : beforeCaret? base = none :=
      beforeCaret?_eq_none fun last => (plain _ (List.mem_of_getLast? last)).2.2 rfl
    have noTilde : beforeTilde? base = none := by
      rw [beforeTilde?, Pieces.cutLast?_whole fun member => (plain _ member).2.1 rfl]
      rfl
    rw [parseWithin, noCaret]
    simp only
    rw [noTilde]

/-- A caret at the end of a line is taken off. -/
theorem parseWithin_caret (line : isLine chars = true) :
    parseWithin (most + 1) (chars ++ ['^']) = (parseWithin most chars).map .parent := by
  have cut : beforeCaret? (chars ++ ['^']) = some chars := by
    rw [beforeCaret?, Pieces.beforeEnd?_eq_some.mpr rfl]
    simp [line]
  rw [parseWithin, cut]

/-- Exactly the number of a suffix that may be written is read. -/
theorem parseGenerations_iff {text : String} {generations : Nat}
    (unsigned : digits.head? ≠ some '+') :
    parseGenerations text digits = .ok generations ↔
      (Suffix.tilde digits).Fits ∧ Nat.ofDigitChars 10 digits 0 = generations := by
  have same : parseGenerations text digits = .ok generations ↔
      Text.readNat 10 Text.wordMax digits = .ok generations := by
    rw [parseGenerations]
    cases Text.readNat 10 Text.wordMax digits <;> simp [Except.mapError]
  rw [same, Text.readNat_iff unsigned]
  constructor
  · rintro ⟨filled, isDigit, rfl, inside⟩
    exact ⟨⟨filled, isDigit, inside⟩, rfl⟩
  · rintro ⟨⟨filled, isDigit, inside⟩, rfl⟩
    exact ⟨filled, isDigit, rfl, inside⟩

/-- What is taken off with a tilde has no sign. -/
theorem of_beforeTilde {front : List Char} (cut : beforeTilde? chars = some (front, digits)) :
    chars = front ++ '~' :: digits ∧ digits.head? ≠ some '+' := by
  obtain ⟨found, kind⟩ := Option.filter_eq_some_iff.mp cut
  simp only [Bool.and_eq_true, List.all_eq_true] at kind
  refine ⟨(Pieces.eq_of_cutLast? found).1, fun first => ?_⟩
  have inside := kind.2 '+' (List.mem_of_mem_head? first)
  rw [CharSet.contains_decimalNumber (by decide)] at inside
  exact absurd inside (by decide)

/-- A tilde with digits at the end of a line is taken off. -/
theorem parseWithin_tilde (line : isLine chars = true) (fits : (Suffix.tilde digits).Fits) :
    parseWithin (most + 1) (chars ++ '~' :: digits) =
      (parseWithin most chars).map (.ancestor · (Nat.ofDigitChars 10 digits 0)) := by
  have ⟨filled, isDigit, _⟩ := fits
  have other {c : Char} (noDigit : c.isDigit = false) : c ∉ digits := fun member => by
    rw [isDigit c member] at noDigit
    cases noDigit
  have noCaret : beforeCaret? (chars ++ '~' :: digits) = none := by
    refine beforeCaret?_eq_none fun last => ?_
    rw [List.getLast?_append_of_ne_nil _ (List.cons_ne_nil _ _),
      List.getLast?_cons_of_ne_nil filled] at last
    exact other (by decide) (List.mem_of_getLast? last)
  have cut : beforeTilde? (chars ++ '~' :: digits) = some (chars, digits) := by
    have all : digits.all Unicode.Category.decimalNumber.contains = true := by
      refine List.all_eq_true.mpr fun c member => ?_
      obtain ⟨least, most⟩ := Char.isDigit_iff_toNat.mp (isDigit c member)
      rw [CharSet.contains_decimalNumber most]
      exact decide_eq_true least
    rw [beforeTilde?, Pieces.cutLast?_append chars (other (by decide))]
    simp [line, filled, all]
  rw [parseWithin, noCaret]
  simp only
  rw [cut]
  simp only
  rw [(parseGenerations_iff (of_beforeTilde cut).2).mpr ⟨fits, rfl⟩]

/-- Whatever is written is read, suffix by suffix. -/
theorem parseWithin_written (written : Written chars base suffixes) (means : Means base branch)
    (enough : suffixes.length ≤ most) :
    parseWithin most chars = .ok (suffixes.foldl Suffix.apply (.name branch)) := by
  induction suffixes using List.reverseRecOn generalizing most chars with
  | nil =>
    rw [written.whole, List.flatMap_nil, List.append_nil, parseWithin_base written.isBase]
    exact parseName_iff.mpr ⟨branch, means, rfl⟩
  | append_singleton suffixes suffix inductionHypothesis =>
    obtain ⟨before, fits, rfl⟩ := written.front
    rw [List.length_append, List.length_singleton] at enough
    obtain ⟨less, rfl⟩ : ∃ less, most = less + 1 := ⟨most - 1, by omega⟩
    have read := inductionHypothesis before (by omega : suffixes.length ≤ less)
    rw [List.foldl_append, List.foldl_cons, List.foldl_nil]
    cases suffix with
    | caret =>
      rw [Suffix.chars, parseWithin_caret before.isLine, read]
      rfl
    | tilde digits =>
      rw [Suffix.chars, parseWithin_tilde before.isLine fits, read]
      rfl

/-- What is read with a suffix behind it was read before. -/
theorem of_map {step : Revision → Revision}
    (read : (parseWithin most chars).map step = .ok revision) :
    ∃ older, parseWithin most chars = .ok older := by
  cases before : parseWithin most chars with
  | error failure =>
    rw [before] at read
    cases read
  | ok older => exact ⟨older, rfl⟩

/-- Nothing is read but what may be written. -/
theorem written_of_parseWithin (read : parseWithin most chars = .ok revision) :
    ∃ base suffixes, Written chars base suffixes := by
  have named {chars : List Char} {revision : Revision}
      (read : parseName (String.ofList chars) = .ok revision) :
      ∃ base suffixes, Written chars base suffixes := by
    obtain ⟨_, means, _⟩ := parseName_iff.mp read
    exact ⟨chars, [], (List.append_nil chars).symm, means.isBase, fun _ member => nomatch member⟩
  induction most generalizing chars revision with
  | zero => exact named read
  | succ most inductionHypothesis =>
    rw [parseWithin] at read
    split at read
    · rename_i front cut
      obtain ⟨found, _⟩ := Option.filter_eq_some_iff.mp cut
      obtain rfl := Pieces.beforeEnd?_eq_some.mp found
      obtain ⟨older, before⟩ := of_map read
      obtain ⟨base, suffixes, written⟩ := inductionHypothesis before
      have fits : Suffix.caret.Fits := trivial
      exact ⟨base, _, written.append fits⟩
    · split at read
      · exact named read
      · rename_i front digits cut
        obtain ⟨rfl, unsigned⟩ := of_beforeTilde cut
        split at read
        · cases read
        · rename_i generations count
          obtain ⟨fits, _⟩ := (parseGenerations_iff unsigned).mp count
          obtain ⟨older, before⟩ := of_map read
          obtain ⟨base, suffixes, written⟩ := inductionHypothesis before
          exact ⟨base, _, written.append fits⟩

/-- A revision is displayed as its name and its suffixes with as few digits as they take. -/
theorem display_foldl (start : Revision) (suffixes : List Suffix) :
    (suffixes.foldl Suffix.apply start).display.toList =
      start.display.toList ++ (suffixes.map Suffix.canonical).flatMap Suffix.chars := by
  induction suffixes generalizing start with
  | nil => exact (List.append_nil _).symm
  | cons suffix suffixes inductionHypothesis =>
    rw [List.foldl_cons, inductionHypothesis, Suffix.display_apply, List.map_cons,
      List.flatMap_cons, List.append_assoc]

/-- What is displayed may be written. -/
theorem Written.display (written : Written chars base suffixes) :
    Written (suffixes.foldl Suffix.apply (.name branch)).display.toList branch.text.toList
      (suffixes.map Suffix.canonical) := by
  refine ⟨display_foldl _ _, .inr (BranchName.isValid_iff.mp branch.valid), ?_⟩
  rw [List.forall_mem_map]
  exact fun suffix member => (written.fits suffix member).canonical

/-- No branch that is meant is called by the sign. -/
theorem Means.named (means : Means base branch) : Means branch.text.toList branch := by
  rw [Means] at means
  split at means
  · subst means
    rw [Means, if_neg (by decide)]
  · rename_i sign
    rw [Means, means, if_neg sign]

/-- A revision has no more suffixes than characters. -/
theorem Written.length_le (written : Written chars base suffixes) :
    suffixes.length ≤ chars.length := by
  have least : suffixes.length ≤ (suffixes.flatMap Suffix.chars).length := by
    clear written
    induction suffixes with
    | nil => exact Nat.le_refl 0
    | cons suffix suffixes inductionHypothesis =>
      have one := suffix.length_chars_pos
      rw [List.flatMap_cons, List.length_append, List.length_cons]
      omega
  rw [written.whole, List.length_append]
  omega

/-- What is written is read as its suffixes applied to its name, the first one first. -/
theorem parse_written {text : String} (written : Written text.toList base suffixes)
    (means : Means base branch) :
    parse text = .ok (suffixes.foldl Suffix.apply (.name branch)) :=
  parseWithin_written written means written.length_le

/-- Exactly names with suffixes behind them are read, as the suffixes applied to the name, the
first one first; and every revision is read again from what it is displayed as.

Proof: a reader takes the last suffix off first, and the suffixes are applied from the front. Read
text is written in this form, by induction on the bound, and what is displayed is written in it with
numbers in their shortest form. -/
theorem parse_grammar (text : String) :
    ((∃ revision, parse text = .ok revision) ↔
      ∃ base suffixes, Written text.toList base suffixes) ∧
    (∀ base suffixes, Written text.toList base suffixes →
      ∃ branch, Means base branch ∧
        parse text = .ok (suffixes.foldl Suffix.apply (.name branch))) ∧
    ∀ revision, parse text = .ok revision → parse revision.display = .ok revision := by
  have isRead (base : List Char) (suffixes : List Suffix)
      (written : Written text.toList base suffixes) : ∃ branch, Means base branch ∧
        parse text = .ok (suffixes.foldl Suffix.apply (.name branch)) := by
    obtain ⟨branch, means⟩ := written.isBase.exists_means
    exact ⟨branch, means, parse_written written means⟩
  refine ⟨⟨fun ⟨_, read⟩ => written_of_parseWithin read, ?_⟩, isRead, fun revision read => ?_⟩
  · rintro ⟨base, suffixes, written⟩
    obtain ⟨_, _, read⟩ := isRead base suffixes written
    exact ⟨_, read⟩
  · obtain ⟨base, suffixes, written⟩ := written_of_parseWithin read
    obtain ⟨branch, means, meant⟩ := isRead base suffixes written
    obtain rfl := Except.ok.inj (read.symm.trans meant)
    rw [parse_written written.display means.named, List.foldl_map]
    simp only [Suffix.apply_canonical]

/-- The sign means what is checked out, and a number is displayed without its zeros. -/
theorem parse_grammar_of_padded :
    Written "@^~007".toList ['@'] [.caret, .tilde ['0', '0', '7']] ∧
      parse "@^~007" = .ok (.ancestor (.parent head) 7) ∧
      parse "HEAD^~7" = .ok (.ancestor (.parent head) 7) := by
  have written : Written "@^~007".toList ['@'] [.caret, .tilde ['0', '0', '7']] := by
    refine ⟨by decide, .inl rfl, List.forall_mem_cons.mpr ⟨trivial, ?_⟩⟩
    exact List.forall_mem_singleton.mpr ⟨by decide, by simp, by decide +kernel⟩
  obtain ⟨_, isRead, again⟩ := parse_grammar "@^~007"
  obtain ⟨branch, means, read⟩ := isRead _ _ written
  obtain rfl : branch = .head := means
  have displayed := again _ read
  exact ⟨written, read, displayed⟩

end Ancestry.Revision
