import Ancestry.Pattern.Reading
import Ancestry.Proofs.Pattern.Starts

/-!
# Patterns that are words

A pattern of characters without a meaning of their own is read as these characters one behind
another, and it matches where they stand and nowhere else.
-/

namespace Ancestry

/-- The set of one character has no other member. -/
theorem CharSet.contains_single {c other : Char} :
    (single c).contains other = true ↔ other = c := by
  have same : other = c ↔ other.toNat = c.toNat := Char.toNat_inj.symm
  rw [same]
  simp only [contains, containsPoint, single, interval, rangesContain]
  split
  · simp; omega
  · split
    · simp; omega
    · simp; omega

namespace Pattern

/-- Characters that mean something else than themselves. -/
def isMeta (c : Char) : Bool :=
  ['\\', '.', '+', '*', '?', '(', ')', '|', '[', '\x7b', '^', '$'].contains c

variable {c : Char} {chars rest text : List Char} {names : List String} {most start stop : Nat}
  {pattern : Pattern}

section reading

open Reader

/-- A character without a meaning of its own is read as the set of itself. -/
theorem single_plain (plain : isMeta c = false) (chars : List Char) (names : List String) :
    single.run { chars := c :: chars, names } = some (.ofSet (.single c) 0, { chars, names }) := by
  simp [isMeta] at plain
  simp [single, plain, Reader.options, current, Reader.chars, advance, given, Options.literalSet?,
    Options.char?, Options.foldCase]

/-- Puts a character behind the parts of a branch. -/
def Branches.pushChar (done : Branches) (c : Char) : Branches :=
  done.push (.piece (.ofSet (.single c) 0))

/-- Such characters are put behind the parts of the branch that is read, one after another. -/
theorem branches_plain (plain : ∀ c ∈ chars, isMeta c = false) (enough : chars.length < most)
    (done : Branches) (names : List String) :
    (branches most done).run { chars, names } =
      some ((chars.foldl Branches.pushChar done).finish, { chars := [], names }) := by
  induction chars generalizing most done with
  | nil =>
    obtain ⟨less, rfl⟩ := Nat.exists_eq_succ_of_ne_zero (Nat.ne_of_gt enough)
    rfl
  | cons c chars inductionHypothesis =>
    obtain ⟨less, rfl⟩ := Nat.exists_eq_succ_of_ne_zero (Nat.ne_of_gt (Nat.zero_lt_of_lt enough))
    obtain ⟨first, others⟩ := List.forall_mem_cons.mp plain
    have read := single_plain first chars names
    have rest := inductionHypothesis others (Nat.lt_of_succ_lt_succ enough) (done.pushChar c)
    simp [isMeta] at first
    rw [branches, List.foldl_cons, ← rest]
    simp [first, repetition?, settle, settled, Reader.chars, read, Branches.pushChar]

/-- The parts of a branch, the last one first. -/
theorem foldl_pushChar (chars : List Char) (done : Branches) :
    chars.foldl Branches.pushChar done =
      { done with
        parts := (chars.map fun c => .piece (.ofSet (.single c) 0)).reverse ++ done.parts } := by
  induction chars generalizing done with
  | nil => rfl
  | cons c chars inductionHypothesis =>
    rw [List.foldl_cons, inductionHypothesis, List.map_cons, List.reverse_cons, List.append_assoc]
    rfl

/-- What is not nested is allowed as the only branch if its machine is not too large. -/
theorem inChoice_flat {piece : Piece} (flat : piece.depth = 0) (several : Bool) :
    (Piece.inChoice [piece.nestIf several]).pattern = piece.pattern ∧
      (Piece.inChoice [piece.nestIf several]).isAllowed =
        Machine.fits (Piece.inChoice [piece]).outline := by
  have shallow : max 0 (piece.nestIf several).depth ≤ Piece.depthBound := by
    cases several <;> simp [Piece.nestIf, flat, Piece.depthBound]
  have outline : (Piece.inChoice [piece.nestIf several]).outline =
      (Piece.inChoice [piece]).outline := by
    cases several <;> rfl
  constructor
  · cases several <;> rfl
  · rw [Piece.isAllowed, outline]
    change (decide (max 0 (piece.nestIf several).depth ≤ Piece.depthBound) && _) = _
    rw [decide_eq_true shallow, Bool.true_and]

/-- Pieces of one character each stand one behind another. -/
theorem concat_chars (chars : List Char) :
    Piece.concat (chars.map fun c => .char (.single c)) = word chars := by
  induction chars with
  | nil => rfl
  | cons c chars inductionHypothesis =>
    cases chars with
    | nil => rfl
    | cons next chars => exact congrArg (concat (.char (.single c))) inductionHypothesis

/-- The parts of a word as one piece. -/
def pieceOfWord (chars : List Char) : Piece :=
  .inChoice [.inSequence (chars.map fun c => .ofSet (.single c) 0)]

/-- No part of a word is nested. -/
theorem deepest_chars (chars : List Char) :
    Piece.deepest (chars.map fun c => .ofSet (.single c) 0) = 0 := by
  rw [Piece.deepest, List.foldl_map]
  induction chars with
  | nil => rfl
  | cons c chars inductionHypothesis => exact inductionHypothesis

/-- A branch of such characters is a word, and refused only if its machine is too large. -/
theorem finish_chars (chars : List Char) :
    (chars.foldl Branches.pushChar {}).finish.pattern = word chars ∧
      (chars.foldl Branches.pushChar {}).finish.isAllowed =
        Machine.fits (pieceOfWord chars).outline := by
  have finish : (chars.foldl Branches.pushChar {}).finish = .inChoice
      [(Piece.inSequence (chars.map fun c => .ofSet (.single c) 0)).nestIf (1 < chars.length)] := by
    rw [foldl_pushChar]
    simp [Branches.finish, Branches.branch, Function.comp_def, Part.toPiece, Piece.nestIf]
  have flat : (Piece.inSequence (chars.map fun c => .ofSet (.single c) 0)).depth = 0 :=
    deepest_chars chars
  obtain ⟨read, allowed⟩ := inChoice_flat flat (1 < chars.length)
  rw [finish]
  refine ⟨?_, allowed⟩
  rw [← concat_chars]
  simpa [Piece.inSequence, Function.comp_def, Piece.ofSet] using read

/-- A pattern of characters without a meaning of their own is read as a word, if a machine for
it is not too large. -/
theorem read?_plain {text : String} (plain : ∀ c ∈ text.toList, isMeta c = false) :
    read? text = if Machine.fits (pieceOfWord text.toList).outline then some (word text.toList)
      else none := by
  obtain ⟨read, allowed⟩ := finish_chars text.toList
  rw [read?, readUnder?, branches_plain plain (Nat.lt_succ_self _)]
  simp only [true_and, read, allowed]

end reading

/-- Characters stand at a place where the first of them stands and the others stand behind it. -/
theorem cons_prefix_drop_iff : c :: rest <+: text.drop start ↔
    text[start]? = some c ∧ rest <+: text.drop (start + 1) := by
  by_cases inside : start < text.length
  · rw [List.drop_eq_getElem_cons inside, List.cons_prefix_cons, List.getElem?_eq_getElem inside,
      Option.some.injEq, eq_comm]
  · have outside := Nat.not_lt.mp inside
    simp [List.drop_eq_nil_of_le outside, List.getElem?_eq_none outside]

/-- A single character is matched by itself. -/
theorem matches_single_iff : Matches text (.char (.single c)) start stop ↔
    text[start]? = some c ∧ stop = start + 1 := by
  constructor
  · intro matched
    cases matched with
    | char found member =>
      obtain rfl := CharSet.contains_single.mp member
      exact ⟨found, rfl⟩
  · rintro ⟨found, rfl⟩
    exact .char found (CharSet.contains_single.mpr rfl)

/-- A word matches where its characters stand. -/
theorem matches_word_iff (filled : chars ≠ []) : Matches text (word chars) start stop ↔
    chars <+: text.drop start ∧ stop = start + chars.length := by
  induction chars generalizing start with
  | nil => exact absurd rfl filled
  | cons c chars inductionHypothesis =>
    cases chars with
    | nil => simp [word, matches_single_iff, cons_prefix_drop_iff]
    | cons next chars =>
      have rest : Matches text (word (next :: chars)) (start + 1) stop ↔ _ :=
        inductionHypothesis (List.cons_ne_nil _ _)
      have length : start + (c :: next :: chars).length = start + 1 + (next :: chars).length := by
        rw [List.length_cons, Nat.add_assoc, Nat.add_comm 1]
      rw [cons_prefix_drop_iff, length, and_assoc, ← rest]
      constructor
      · intro matched
        cases matched with
        | concat front back =>
          obtain ⟨found, rfl⟩ := matches_single_iff.mp front
          exact ⟨found, back⟩
      · rintro ⟨found, back⟩
        exact .concat (matches_single_iff.mpr ⟨found, rfl⟩) back

/-- A word begins to match where its characters stand. -/
theorem begins_word (filled : chars ≠ []) :
    (word chars).Begins text = fun place => chars <+: text.drop place := by
  funext place
  simp only [Begins, matches_word_iff filled, exists_and_left, exists_eq, and_true]

end Pattern

end Ancestry
