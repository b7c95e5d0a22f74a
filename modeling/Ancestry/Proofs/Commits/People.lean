import Ancestry.Object.Person
import Ancestry.Proofs.Text.Lines
import Ancestry.Proofs.Text.Numbers

/-!
# People read and written

A person is read back as written when the name holds no opening bracket and no blanks around
it, and the instant is one of whole minutes of offset. Every person that is read from a text
is of this kind; a text that names one ends in a digit.
-/

namespace Ancestry

namespace Calendar

/-- An instant that may be written: it lies within the bounds, its offset is below a day and a
whole number of minutes. -/
structure Instant.Writable (instant : Instant) : Prop where
  least : firstSecond ≤ instant.seconds
  most : instant.seconds ≤ lastSecond
  west : -daySeconds < instant.offset
  east : instant.offset < daySeconds
  minutes : instant.offset % 60 = 0

/-- A number below a hundred is written as two digits. -/
theorem twoDigits_chars {value : Nat} (below : value < 100) :
    (Instant.twoDigits value).toList = [(value / 10).digitChar, (value % 10).digitChar] := by
  have each : ∀ value < 100,
      List.replicate (2 - (Nat.toDigits 10 value).length) '0' ++ Nat.toDigits 10 value =
        [(value / 10).digitChar, (value % 10).digitChar] := by decide
  rw [Instant.twoDigits, Text.padded, String.toList_ofList]
  exact each value below

namespace Reading

/-- A digit is read as such; it is no blank and no colon. -/
theorem digit_digitChar (digit : Nat) (below : digit < 10) :
    isDigit digit.digitChar = true ∧ digit.digitChar.toNat - 48 = digit ∧
      (digit.digitChar == ':' || Text.isBlank digit.digitChar) = false := by
  have each : ∀ digit < 10, isDigit digit.digitChar = true ∧
      digit.digitChar.toNat - 48 = digit ∧
      (digit.digitChar == ':' || Text.isBlank digit.digitChar) = false := by decide
  exact each digit below

/-- Two written digits are read. -/
theorem twoDigits_written {value : Nat} (below : value < 100) (rest : List Char) :
    twoDigits ((value / 10).digitChar :: (value % 10).digitChar :: rest) =
      some ((value : Int), rest) := by
  obtain ⟨high, highValue, _⟩ := digit_digitChar (value / 10) (by omega)
  obtain ⟨low, lowValue, _⟩ := digit_digitChar (value % 10) (by omega)
  rw [twoDigits, high, low]
  simp only [Bool.and_self, if_true, digitsValue, List.foldl_cons, List.foldl_nil, highValue,
    lowValue]
  rw [show (0 * 10 + value / 10) * 10 + value % 10 = value by omega]

/-- Two digits are in front of what is left. -/
theorem eq_of_twoDigits {text rest : List Char} {value : Int}
    (read : twoDigits text = some (value, rest)) :
    ∃ first second, text = first :: second :: rest ∧ isDigit second = true := by
  match text with
  | [] => simp [twoDigits] at read
  | [_] => simp [twoDigits] at read
  | first :: second :: more =>
    rw [twoDigits] at read
    split at read
    · rename_i digits
      obtain ⟨_, rfl⟩ : _ = value ∧ more = rest := by simpa using read
      exact ⟨first, second, rfl, (Bool.and_eq_true_iff.mp digits).2⟩
    · simp at read

/-- What a sign says about an offset. -/
def Signs (minusSigns : List Char) (sign : Char) (negative : Bool) : Prop :=
  sign = '+' ∧ negative = false ∨ sign ≠ '+' ∧ sign ∈ minusSigns ∧ negative = true

variable {minusSigns : List Char} {between : List Char → List Char} {sign : Char}
  {text more rest : List Char} {seconds : Int} {negative : Bool}

/-- An offset behind its sign. -/
theorem offset_sign (signs : Signs minusSigns sign negative) :
    offset minusSigns between (sign :: more) =
      (twoDigits more).bind fun (hours, rest) =>
        (twoDigits (between rest)).bind fun (minutes, rest) =>
          if minutes < 60 then
            some (if negative then -(hours * 3600 + minutes * 60) else hours * 3600 + minutes * 60,
              rest)
          else none := by
  rcases signs with ⟨plus, rfl⟩ | ⟨other, minus, rfl⟩
  · simp [offset, plus]
  · simp [offset, other, minus]

/-- An offset begins with a sign. -/
theorem signs_of_offset (read : offset minusSigns between text = some (seconds, rest)) :
    ∃ sign more negative, text = sign :: more ∧ Signs minusSigns sign negative := by
  cases text with
  | nil => simp [offset] at read
  | cons sign more =>
    by_cases plus : sign = '+'
    · exact ⟨sign, more, false, rfl, .inl ⟨plus, rfl⟩⟩
    · by_cases minus : sign ∈ minusSigns
      · exact ⟨sign, more, true, rfl, .inr ⟨plus, minus, rfl⟩⟩
      · simp [offset, plus, minus] at read

/-- An offset is a sign, two digits for the hours, and two for the minutes. -/
theorem offset_iff (signs : Signs minusSigns sign negative) :
    offset minusSigns between (sign :: more) = some (seconds, rest) ↔
      ∃ hours after minutes, twoDigits more = some (hours, after) ∧
        twoDigits (between after) = some (minutes, rest) ∧ minutes < 60 ∧
        (if negative then -(hours * 3600 + minutes * 60) else hours * 3600 + minutes * 60) =
          seconds := by
  rw [offset_sign signs]
  simp only [Option.bind_eq_some_iff, Prod.exists, Option.ite_none_right_eq_some,
    Option.some.injEq, Prod.mk.injEq]
  constructor
  · rintro ⟨hours, after, first, minutes, _, second, below, same, rfl⟩
    exact ⟨hours, after, minutes, first, second, below, same⟩
  · rintro ⟨hours, after, minutes, first, second, below, same⟩
    exact ⟨hours, after, first, minutes, rest, second, below, same, rfl⟩

/-- An offset of whole minutes is written as a sign and its hours and minutes. -/
theorem zone_chars {instant : Instant} (writable : instant.Writable) :
    ∃ sign, Signs ['-', '\u2212'] sign (decide (instant.offset < 0)) ∧
      ∃ minutes : Nat, minutes * 60 = instant.offset.natAbs ∧ minutes < 1440 ∧
        instant.zone.toList = [sign, (minutes / 60 / 10).digitChar, (minutes / 60 % 10).digitChar,
          (minutes % 60 / 10).digitChar, (minutes % 60 % 10).digitChar] ∧
        ∀ c ∈ instant.zone.toList, Text.isBlank c = false := by
  obtain ⟨_, _, west, east, whole⟩ := writable
  rw [daySeconds] at west east
  generalize counted : (instant.offset.natAbs + 30) / 60 = minutes
  have signed : ∃ sign, Signs ['-', '\u2212'] sign (decide (instant.offset < 0)) ∧
      Text.isBlank sign = false ∧ instant.zone.toList = [sign, (minutes / 60 / 10).digitChar,
        (minutes / 60 % 10).digitChar, (minutes % 60 / 10).digitChar,
        (minutes % 60 % 10).digitChar] := by
    rw [Instant.zone, Instant.zoneText, counted]
    simp only [String.toList_append, twoDigits_chars (show minutes / 60 < 100 by omega),
      twoDigits_chars (show minutes % 60 < 100 by omega)]
    by_cases negative : instant.offset < 0
    · exact ⟨'-', .inr (by simp [negative]), by decide, by simp [negative]⟩
    · exact ⟨'+', .inl (by simp [negative]), by decide, by simp [negative]⟩
  obtain ⟨sign, signs, shown, written⟩ := signed
  refine ⟨sign, signs, minutes, by omega, by omega, written, ?_⟩
  have plain {digit : Nat} (below : digit < 10) : Text.isBlank digit.digitChar = false :=
    (Bool.or_eq_false_iff.mp (digit_digitChar digit below).2.2).2
  intro c member
  rw [written] at member
  simp only [List.mem_cons, List.not_mem_nil, or_false] at member
  rcases member with rfl | rfl | rfl | rfl | rfl
  · exact shown
  all_goals exact plain (by omega)

/-- An offset that may be written is read as it is written. -/
theorem offset?_zone {instant : Instant} (writable : instant.Writable) :
    offset? instant.zone.toList = some instant.offset := by
  obtain ⟨sign, signs, minutes, same, below, written, shown⟩ := zone_chars writable
  have read : looseOffset instant.zone.toList = some (instant.offset, []) := by
    obtain ⟨_, _, plain⟩ := digit_digitChar (minutes % 60 / 10) (by omega)
    rw [looseOffset, written, offset_iff signs]
    refine ⟨_, _, ((minutes % 60 : Nat) : Int), twoDigits_written (by omega) _, ?_, by omega, ?_⟩
    · rw [List.dropWhile_cons_of_neg (by simp [plain])]
      exact twoDigits_written (by omega) []
    · by_cases negative : instant.offset < 0
      · rw [if_pos (by simpa using negative)]
        omega
      · rw [if_neg (by simpa using negative)]
        omega
  have kept : skipBlank instant.zone.toList = instant.zone.toList := by
    rw [written] at shown ⊢
    exact List.dropWhile_cons_of_neg (by simp [shown sign List.mem_cons_self])
  rw [offset?, kept, whole, read]
  exact if_pos ⟨writable.west, writable.east⟩

/-- An offset that is read is below a day and one of whole minutes, and its text ends in a
digit. -/
theorem of_offset? (read : offset? text = some seconds) :
    -daySeconds < seconds ∧ seconds < daySeconds ∧ seconds % 60 = 0 ∧
      ∃ last, isDigit last = true ∧ [last] <:+ text := by
  simp only [offset?, Option.bind_eq_bind, Option.bind_eq_some_iff] at read
  obtain ⟨value, complete, inside⟩ := read
  obtain ⟨⟨west, east⟩, rfl⟩ : _ ∧ value = seconds := by
    simpa only [Option.ite_none_right_eq_some, Option.some.injEq] using inside
  have loose : looseOffset (skipBlank text) = some (value, []) := by
    rw [whole] at complete
    split at complete
    · simp_all
    · simp at complete
  obtain ⟨sign, more, negative, begins, signs⟩ := signs_of_offset loose
  rw [begins, looseOffset, offset_iff signs] at loose
  obtain ⟨hours, after, minutes, first, second, _, same⟩ := loose
  obtain ⟨_, _, rfl, _⟩ := eq_of_twoDigits first
  obtain ⟨tens, last, ends, digit⟩ := eq_of_twoDigits second
  refine ⟨west, east, ?_, last, digit, ?_⟩
  · split at same <;> omega
  · have inner : [last] <:+ after := by
      refine List.IsSuffix.trans ?_ (List.dropWhile_suffix fun c => c == ':' || Text.isBlank c)
      rw [ends]
      exact List.suffix_cons tens [last]
    have outer : skipBlank text <:+ text := List.dropWhile_suffix Text.isBlank
    rw [begins] at outer
    exact (inner.trans ⟨[_, _, _], rfl⟩).trans outer

end Reading

end Calendar

open Calendar

/-- A person that may be written: the name is trimmed and holds no opening bracket, name and
address stand on one line, and the instant may be written. -/
structure Person.Writable (person : Person) : Prop where
  unopened : '<' ∉ person.name.toList
  trimmed : Text.trim person.name = person.name
  nameLine : '\n' ∉ person.name.toList
  emailLine : '\n' ∉ person.email.toList
  time : person.time.Writable

namespace Person

variable {person : Person} {text : String} {chars name email : List Char}

/-- Name and address are read as they are written. -/
theorem parseName_written (unopened : '<' ∉ name) (trimmed : Text.trimChars name = name)
    (email : List Char) :
    parseName (name ++ ' ' :: '<' :: (email ++ ['>'])) =
      .ok (String.ofList name, String.ofList email) := by
  have opening : Pieces.cutFirst '<' (name ++ ' ' :: '<' :: (email ++ ['>'])) =
      (name ++ [' '], some (email ++ ['>'])) := by
    have free : '<' ∉ name ++ [' '] := by simp [unopened]
    simpa using Pieces.cutFirst_append free (email ++ ['>'])
  have closing : Pieces.cutLast? '>' (name ++ ' ' :: '<' :: (email ++ ['>'])) =
      some (name ++ ' ' :: '<' :: email, []) := by
    have free : '>' ∉ ([] : List Char) := List.not_mem_nil
    simpa using Pieces.cutLast?_append (name ++ ' ' :: '<' :: email) free
  have address : (name ++ ' ' :: '<' :: email).drop ((name ++ [' ']).length + 1) = email := by
    rw [List.length_append, Nat.add_assoc, List.drop_append]
    simp
  rw [parseName, opening, closing]
  simp only
  rw [if_neg (by simp), Text.trimChars_append trimmed (by decide), address]

/-- A name that is read is trimmed and holds no opening bracket; name and address are parts of
the text. -/
theorem of_parseName {name email : String} (read : parseName chars = .ok (name, email)) :
    '<' ∉ name.toList ∧ Text.trim name = name ∧ name.toList ⊆ chars ∧ email.toList ⊆ chars := by
  obtain ⟨unopened, inside⟩ := Pieces.cutFirst_before '<' chars
  rw [parseName] at read
  split at read
  · cases read
  · rename_i before after opening
    rw [opening] at unopened inside
    split at read
    · cases read
    · rename_i front back closing
      split at read
      · cases read
      · obtain ⟨rfl, rfl⟩ : String.ofList (Text.trimChars before) = name ∧
            String.ofList (front.drop (before.length + 1)) = email := by simpa using read
        have part := Text.trimChars_subset before
        obtain ⟨whole, _⟩ := Pieces.eq_of_cutLast? closing
        refine ⟨fun open' => unopened (part (by simpa using open')), ?_, ?_, ?_⟩
        · rw [Text.trim, String.toList_ofList, Text.trimChars_again]
        · rw [String.toList_ofList]
          exact fun _ member => inside (part member)
        · rw [String.toList_ofList, whole]
          exact fun _ member => List.mem_append_left _ (List.mem_of_mem_drop member)

/-- What reading a person comes to. -/
theorem parse_iff : parse text = .ok person ↔
    ∃ front digits zone, text.toList = (front ++ ' ' :: digits) ++ ' ' :: zone ∧
      ' ' ∉ digits ∧ ' ' ∉ zone ∧ Text.readInt64Chars digits = .ok person.time.seconds ∧
      parseName front = .ok (person.name, person.email) ∧
      Reading.offset? zone = some person.time.offset ∧
      firstSecond ≤ person.time.seconds ∧ person.time.seconds ≤ lastSecond := by
  constructor
  · intro read
    rw [parse] at read
    split at read
    · cases read
    · rename_i front zone zoneCut
      split at read
      · cases read
      · rename_i front digits digitsCut
        obtain ⟨whole, zoneFree⟩ := Pieces.eq_of_cutLast? zoneCut
        obtain ⟨rfl, digitsFree⟩ := Pieces.eq_of_cutLast? digitsCut
        cases number : Text.readInt64Chars digits with
        | error => rw [number] at read; cases read
        | ok seconds =>
          cases named : parseName front with
          | error => rw [number, named] at read; cases read
          | ok both =>
            cases shifted : Reading.offset? zone with
            | none => rw [number, named, shifted] at read; cases read
            | some offset =>
              rw [number, named, shifted] at read
              replace read : (do
                  let seconds ← checkSeconds seconds
                  return (⟨both.1, both.2, ⟨seconds, offset⟩⟩ : Person)) = .ok person := read
              rw [checkSeconds.eq_1] at read
              split at read
              · rename_i inside
                cases read
                exact ⟨front, digits, zone, whole, digitsFree, zoneFree, number, named, shifted,
                  inside⟩
              · cases read
  · rintro ⟨front, digits, zone, whole, digitsFree, zoneFree, number, named, shifted, inside⟩
    rw [parse, whole, Pieces.cutLast?_append _ zoneFree]
    simp only
    rw [Pieces.cutLast?_append _ digitsFree]
    simp only
    rw [number, named, shifted]
    change (do
      let seconds ← checkSeconds person.time.seconds
      return (⟨person.name, person.email, ⟨seconds, person.time.offset⟩⟩ : Person)) = .ok person
    rw [checkSeconds.eq_1, if_pos inside]
    rfl

/-- A person that may be written is read as written. -/
theorem parse_display (writable : person.Writable) : parse person.display = .ok person := by
  obtain ⟨unopened, trimmed, _, _, time⟩ := writable
  have name : Text.trimChars person.name.toList = person.name.toList := by
    rw [← String.toList_inj, Text.trim, String.toList_ofList] at trimmed
    exact trimmed
  have zoneFree : ' ' ∉ person.time.zone.toList := by
    obtain ⟨_, _, _, _, _, _, shown⟩ := Reading.zone_chars time
    exact fun member => absurd (shown ' ' member) (by decide)
  have inside : -2 ^ 63 ≤ person.time.seconds ∧ person.time.seconds < 2 ^ 63 := by
    have least := time.least
    have most := time.most
    rw [instant_bounds.1] at least
    rw [instant_bounds.2] at most
    omega
  refine parse_iff.mpr ⟨person.name.toList ++ ' ' :: '<' :: (person.email.toList ++ ['>']), _, _,
    ?_, Text.not_mem_toString (by decide) (by decide) _, zoneFree,
    Text.readInt64Chars_toString inside.1 inside.2, ?_, Reading.offset?_zone time, time.least,
    time.most⟩
  · simp [display, displayName]
  · rw [parseName_written unopened name, String.ofList_toList, String.ofList_toList]

/-- A person that is read from one line may be written, and the line ends in a digit. -/
theorem writable_of_parse (read : parse text = .ok person) (line : '\n' ∉ text.toList) :
    person.Writable ∧ ∃ last, Reading.isDigit last = true ∧ [last] <:+ text.toList := by
  obtain ⟨front, digits, zone, whole, _, _, _, named, shifted, inside⟩ := parse_iff.mp read
  obtain ⟨unopened, trimmed, nameInside, emailInside⟩ := of_parseName named
  obtain ⟨west, east, minutes, last, digit, ends⟩ := Reading.of_offset? shifted
  have frontInside : front ⊆ text.toList := by
    rw [whole, List.append_assoc]
    exact List.subset_append_left _ _
  refine ⟨⟨unopened, trimmed, fun member => line (frontInside (nameInside member)),
    fun member => line (frontInside (emailInside member)),
    ⟨inside.1, inside.2, west, east, minutes⟩⟩, last, digit, ?_⟩
  rw [whole]
  exact (ends.trans (List.suffix_cons ' ' zone)).trans (List.suffix_append _ _)

end Person

end Ancestry
