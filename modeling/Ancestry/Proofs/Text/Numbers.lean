import Ancestry.Text.Integer
import Mathlib.Algebra.Group.Int.Defs
import Mathlib.Data.Nat.Basic

/-!
# Written numbers

The digits of a number, in any radix up to ten, are read as the number again, unless it is past
the bound of what may be read; a sign in front of them is read with them. In decimal nothing else
is read than digits of a number within the bound.
-/

namespace Ancestry.Text

variable {radix bound value : Nat} {past : IntegerFault}

/-- Digits are read one after the other. -/
theorem readDigits_append (before after : List Char) :
    readDigits radix bound past value (before ++ after) =
      (readDigits radix bound past value before).bind
        fun value => readDigits radix bound past value after := by
  induction before generalizing value with
  | nil => rfl
  | cons c before inductionHypothesis =>
    rw [List.cons_append, readDigits, readDigits]
    cases digit? radix c with
    | none => rfl
    | some digit =>
      simp only
      split
      · exact inductionHypothesis
      · rfl

/-- A digit below the radix is read as its value. -/
theorem digit?_digitChar {digit : Nat} (small : radix ≤ 10) (below : digit < radix) :
    digit? radix digit.digitChar = some digit := by
  have each : ∀ digit < 10, '0' ≤ digit.digitChar ∧ digit.digitChar ≤ '9' ∧
      digit.digitChar.toNat - 48 = digit := by decide
  obtain ⟨least, most, same⟩ := each digit (by omega)
  rw [digit?, if_pos ⟨least, most, by omega⟩, same]

/-- One more digit within the bound is read. -/
theorem readDigits_digitChar {digit : Nat} (small : radix ≤ 10) (below : digit < radix)
    (inside : value * radix + digit ≤ bound) :
    readDigits radix bound past value [digit.digitChar] = .ok (value * radix + digit) := by
  rw [readDigits, digit?_digitChar small below]
  exact if_pos inside

/-- The digits of a number are read as the number. -/
theorem readDigits_toDigits (past : IntegerFault) (large : 1 < radix) (small : radix ≤ 10)
    (inside : value ≤ bound) :
    readDigits radix bound past 0 (Nat.toDigits radix value) = .ok value := by
  induction value using Nat.strong_induction_on with
  | _ value inductionHypothesis =>
    by_cases single : value < radix
    · rw [Nat.toDigits_of_lt_base single, readDigits_digitChar small single (by omega)]
      simp
    · have smaller : value / radix < value := Nat.div_lt_self (by omega) large
      have last : value % radix < radix := Nat.mod_lt _ (by omega)
      have whole : value / radix * radix + value % radix = value := by
        rw [Nat.mul_comm]
        exact Nat.div_add_mod value radix
      rw [Nat.toDigits_of_base_le large (by omega), readDigits_append,
        inductionHypothesis _ smaller (by omega), Except.bind,
        readDigits_digitChar small last (by omega), whole]

/-- The first digit of a number is no sign. -/
theorem toDigits_unsigned (large : 1 < radix) (small : radix ≤ 10) (value : Nat) :
    ∃ first rest, Nat.toDigits radix value = first :: rest ∧ first ≠ '+' ∧ first ≠ '-' := by
  cases digits : Nat.toDigits radix value with
  | nil => exact absurd digits Nat.toDigits_ne_nil
  | cons first rest =>
    have isDigit : first.isDigit :=
      Nat.isDigit_of_mem_toDigits (by omega) small (digits ▸ List.mem_cons_self)
    refine ⟨first, rest, rfl, ?_, ?_⟩
    · rintro rfl
      exact absurd isDigit (by decide)
    · rintro rfl
      exact absurd isDigit (by decide)

/-- A written natural number within the bound is read. -/
theorem readNat_toDigits (large : 1 < radix) (small : radix ≤ 10) (inside : value ≤ bound) :
    readNat radix bound (Nat.toDigits radix value) = .ok value := by
  have read := readDigits_toDigits .large large small inside
  obtain ⟨first, rest, digits, plus, _⟩ := toDigits_unsigned large small value
  rw [digits] at read ⊢
  unfold readNat
  split <;> simp_all

/-- A written machine word is read. -/
theorem readWord_digits (inside : value ≤ wordMax) : readWord (digits 10 value) = .ok value := by
  rw [readWord, digits, String.toList_ofList]
  exact readNat_toDigits (by decide) (by decide) inside

/-- A written integer of 64 bits is read. -/
theorem readInt64Chars_toString {number : Int} (least : -2 ^ 63 ≤ number) (most : number < 2 ^ 63) :
    readInt64Chars (toString number).toList = .ok number := by
  rw [Int.toString_eq_repr, Int.repr_eq_if]
  split
  · rename_i positive
    have inside : number.toNat ≤ Nat.pow 2 63 - 1 := by
      change number.toNat ≤ 2 ^ 63 - 1
      omega
    have read := readDigits_toDigits .large (by decide : 1 < 10) (by decide) inside
    obtain ⟨first, rest, digits, plus, minus⟩ :=
      toDigits_unsigned (by decide : 1 < 10) (by decide) number.toNat
    rw [Nat.toList_repr, digits]
    rw [digits] at read
    have same : Int.ofNat number.toNat = number := Int.toNat_of_nonneg positive
    unfold readInt64Chars
    split <;> simp_all [Except.map]
  · rename_i negative
    have inside : (-number).toNat ≤ Nat.pow 2 63 := by
      change (-number).toNat ≤ 2 ^ 63
      omega
    have read := readDigits_toDigits .small (by decide : 1 < 10) (by decide) inside
    obtain ⟨first, rest, digits, _⟩ := toDigits_unsigned (by decide : 1 < 10) (by decide)
      (-number).toNat
    have signed : ("-" ++ (-number).toNat.repr).toList = '-' :: first :: rest := by
      rw [String.toList_append, Nat.toList_repr, digits]
      rfl
    have same : -Int.ofNat (-number).toNat = number := by
      rw [Int.ofNat_eq_natCast, Int.toNat_of_nonneg (by omega), Int.neg_neg]
    rw [digits] at read
    rw [signed]
    unfold readInt64Chars
    split <;> simp_all [Except.map]

/-- A natural number is written in its decimal digits. -/
theorem toList_toString (value : Nat) :
    (toString (value : Int)).toList = Nat.toDigits 10 value := by
  rw [Int.toString_eq_repr, Int.repr_eq_if, if_pos (Int.natCast_nonneg value), Int.toNat_natCast,
    Nat.toList_repr]

/-- A written integer is made of digits and perhaps a minus sign. -/
theorem not_mem_toString {c : Char} (other : c.isDigit = false) (unsigned : c ≠ '-')
    (number : Int) : c ∉ (toString number).toList := by
  have digits (value : Nat) : c ∉ value.repr.toList := by
    intro member
    rw [Nat.toList_repr] at member
    have digit := Nat.isDigit_of_mem_toDigits (by decide) (by decide) member
    exact absurd digit (by simp [other])
  rw [Int.toString_eq_repr, Int.repr_eq_if]
  split
  · exact digits _
  · rw [String.toList_append, List.mem_append]
    exact not_or.mpr ⟨by simp [unsigned], digits _⟩

section Decimal

variable {number : Nat} {digits : List Char}

/-- A character is read as a decimal digit when it is one. -/
theorem digit?_decimal {c : Char} {digit : Nat} :
    digit? 10 c = some digit ↔ c.isDigit = true ∧ c.toNat - '0'.toNat = digit := by
  have bounds : ('0' ≤ c ∧ c ≤ '9') ↔ c.isDigit = true := by
    rw [Char.isDigit_iff_toNat, Char.le_def, Char.le_def, UInt32.le_iff_toNat_le,
      UInt32.le_iff_toNat_le]
    rfl
  have value : c.isDigit = true → c.toNat - 48 < 10 := fun isDigit => by
    have most := (Char.isDigit_iff_toNat.mp isDigit).2
    change c.toNat ≤ 57 at most
    omega
  rw [digit?, Option.ite_none_right_eq_some, Option.some.injEq, ← and_assoc, bounds]
  constructor
  · rintro ⟨⟨isDigit, _⟩, same⟩
    exact ⟨isDigit, same⟩
  · rintro ⟨isDigit, same⟩
    exact ⟨⟨isDigit, value isDigit⟩, same⟩

/-- A number does not fall when digits are put behind it. -/
theorem le_ofDigitChars (value : Nat) (digits : List Char) :
    value ≤ Nat.ofDigitChars 10 digits value := by
  induction digits generalizing value with
  | nil => rw [Nat.ofDigitChars_nil]
  | cons c digits inductionHypothesis =>
    rw [Nat.ofDigitChars_cons]
    exact Nat.le_trans (by omega) (inductionHypothesis _)

/-- Exactly decimal digits of a number within the bound are read. -/
theorem readDigits_iff (past : IntegerFault) (inside : value ≤ bound) :
    readDigits 10 bound past value digits = .ok number ↔
      (∀ c ∈ digits, c.isDigit = true) ∧ Nat.ofDigitChars 10 digits value = number ∧
        number ≤ bound := by
  induction digits generalizing value with
  | nil =>
    rw [readDigits, Except.ok.injEq, Nat.ofDigitChars_nil]
    constructor
    · rintro rfl
      exact ⟨fun _ member => absurd member List.not_mem_nil, rfl, inside⟩
    · rintro ⟨_, rfl, _⟩
      rfl
  | cons c digits inductionHypothesis =>
    rw [readDigits, Nat.ofDigitChars_cons, List.forall_mem_cons, Nat.mul_comm 10]
    cases read : digit? 10 c with
    | none =>
      refine iff_of_false (fun other => nomatch other) fun ⟨⟨isDigit, _⟩, _⟩ => ?_
      rw [digit?_decimal.mpr ⟨isDigit, rfl⟩] at read
      cases read
    | some digit =>
      obtain ⟨isDigit, rfl⟩ := digit?_decimal.mp read
      simp only [isDigit, true_and]
      split
      · rename_i within
        exact inductionHypothesis within
      · rename_i beyond
        refine iff_of_false (fun other => nomatch other) fun ⟨_, same, most⟩ => beyond ?_
        have least := le_ofDigitChars (value * 10 + (c.toNat - '0'.toNat)) digits
        omega

/-- Exactly digits of a number within the bound are read where no sign leads. -/
theorem readNat_iff (unsigned : digits.head? ≠ some '+') :
    readNat 10 bound digits = .ok number ↔
      digits ≠ [] ∧ (∀ c ∈ digits, c.isDigit = true) ∧ Nat.ofDigitChars 10 digits 0 = number ∧
        number ≤ bound := by
  rw [← readDigits_iff .large (Nat.zero_le bound)]
  unfold readNat
  split <;> simp_all
end Decimal

end Ancestry.Text
