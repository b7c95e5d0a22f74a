import Ancestry.Calendar.Instant
import Ancestry.Text.Blank

/-!
# Reading dates and offsets

Readers take a list of characters and give a value with the characters left, or
nothing. Three forms of date are read: the form of mail headers, date with time and
offset, and a date alone, which means its midnight at offset zero. A date is accepted
when the day exists, the offset is below a day, and both its own clock and the clock
at offset zero stay within the range of instants.
-/

namespace Ancestry.Calendar

/-- A reader of characters. -/
abbrev Reader (α : Type) := List Char → Option (α × List Char)

namespace Reading

/-- Without blank characters in front. -/
def skipBlank (chars : List Char) : List Char := chars.dropWhile Text.isBlank

/-- An ASCII digit. -/
def isDigit (c : Char) : Bool := '0' ≤ c && c ≤ '9'

/-- Value of digits. -/
def digitsValue (digits : List Char) : Nat :=
  digits.foldl (fun value c => value * 10 + (c.toNat - 48)) 0

/-- The digits in front, at most `most`. -/
def leadingDigits (most : Option Nat) (chars : List Char) : List Char :=
  let digits := chars.takeWhile isDigit
  match most with
  | some most => digits.take most
  | none => digits

/-- A number of at least `least` and at most `most` digits that fits in 63 bits. -/
def number (least : Nat) (most : Option Nat) : Reader Int := fun chars =>
  let digits := leadingDigits most chars
  if digits.length < least then none
  else if digitsValue digits < Nat.pow 2 63 then
    some (Int.ofNat (digitsValue digits), chars.drop digits.length)
  else none

/-- A given character. -/
def char (expected : Char) : Reader Unit
  | c :: rest => if c = expected then some ((), rest) else none
  | [] => none

/-- At least one blank character. -/
def blanks : Reader Unit
  | c :: rest => if Text.isBlank c then some ((), skipBlank rest) else none
  | [] => none

/-- Letters compared without case within ASCII. -/
def sameLetter (left right : Char) : Bool := left.toLower == right.toLower

/-- The place of a three-letter name among some names, in either case. -/
def name (names : List String) : Reader Nat
  | a :: b :: c :: rest =>
    (names.findIdx? fun known =>
      match known.toList with
      | [x, y, z] => sameLetter a x && sameLetter b y && sameLetter c z
      | _ => false).map fun place => (place, rest)
  | _ => none

/-- Two digits. -/
def twoDigits : Reader Int
  | a :: b :: rest => if isDigit a && isDigit b then some (digitsValue [a, b], rest) else none
  | _ => none

/-- A sign and the hours and minutes of an offset, in seconds. Between hours and
minutes `between` may drop characters. -/
def offset (minusSigns : List Char) (between : List Char → List Char) : Reader Int
  | [] => none
  | sign :: rest => do
    let negative ← if sign = '+' then some false else if sign ∈ minusSigns then some true else none
    let (hours, rest) ← twoDigits rest
    let (minutes, rest) ← twoDigits (between rest)
    if minutes < 60 then
      let seconds := hours * 3600 + minutes * 60
      some (if negative then -seconds else seconds, rest)
    else none

/-- An offset whose hours and minutes may stand apart by colons and blanks. -/
def looseOffset : Reader Int :=
  offset ['-', '\u2212'] (·.dropWhile fun c => c == ':' || Text.isBlank c)

/-- A year of at most four digits, or of any length after a sign. -/
def year : Reader Int := fun chars =>
  match skipBlank chars with
  | '-' :: rest => (number 1 none rest).map fun (value, left) => (-value, left)
  | '+' :: rest => number 1 none rest
  | rest => number 1 (some 4) rest

/-- A number of one or two digits after any blanks. -/
def short : Reader Int := fun chars => number 1 (some 2) (skipBlank chars)

/-- Day and time of day as written, before they are checked. -/
structure Fields where
  weekday : Option Nat := none
  year : Int
  month : Int
  day : Int
  hour : Int := 0
  minute : Int := 0
  second : Int := 0
  offset : Int := 0
  deriving Repr

/-- Seconds on the written clock. A leap second counts as the second before it. -/
def Fields.localSeconds? (fields : Fields) : Option Int :=
  let date : Date := ⟨fields.year, fields.month.toNat, fields.day.toNat⟩
  let days := date.toDays
  if !date.isValid then none
  else if fields.weekday.any (· != Calendar.weekday days) then none
  else if fields.hour > 23 || fields.minute > 59 || fields.second > 60 then none
  else some (days * daySeconds + fields.hour * 3600 + fields.minute * 60 + min fields.second 59)

/-- Seconds at offset zero. -/
def Fields.seconds? (fields : Fields) : Option Int := do
  let seconds ← fields.localSeconds?
  let moved := seconds - fields.offset
  if -daySeconds < fields.offset ∧ fields.offset < daySeconds ∧
      firstSecond ≤ moved ∧ moved ≤ lastSecond then some moved
  else none

/-- A year, a month and a day with hyphens between. -/
def dashedDate : Reader Fields := fun chars => do
  let (y, rest) ← year chars
  let ((), rest) ← char '-' rest
  let (m, rest) ← short rest
  let ((), rest) ← char '-' rest
  let (d, rest) ← short rest
  return ({ year := y, month := m, day := d }, rest)

/-- Date, time of day and offset. -/
def dateTime : Reader Fields := fun chars => do
  let (fields, rest) ← dashedDate chars
  let (h, rest) ← short (skipBlank rest)
  let ((), rest) ← char ':' rest
  let (m, rest) ← short rest
  let ((), rest) ← char ':' rest
  let (s, rest) ← short rest
  let (o, rest) ← looseOffset (skipBlank rest)
  return ({ fields with hour := h, minute := m, second := s, offset := o }, rest)

/-- Offsets in hours of the zones that mail headers name. -/
def zoneHours : List (String × Int) :=
  [("gmt", 0), ("ut", 0), ("z", 0), ("edt", -4), ("est", -5), ("cdt", -5), ("cst", -6),
    ("mdt", -6), ("mst", -7), ("pdt", -7), ("pst", -8)]

/-- Offset of a zone name. One letter other than J is a name at offset zero. -/
def namedZone? (letters : List Char) : Option Int :=
  let lower := String.ofList (letters.map Char.toLower)
  match zoneHours.lookup lower with
  | some hours => some (hours * 3600)
  | none => if letters.length = 1 ∧ lower ≠ "j" then some 0 else none

/-- A letter of ASCII. -/
def isLetter (c : Char) : Bool := ('a' ≤ c && c ≤ 'z') || ('A' ≤ c && c ≤ 'Z')

/-- The zone of a mail header: a name, or a sign and four digits. -/
def mailZone : Reader Int := fun chars =>
  match chars.takeWhile isLetter with
  | [] => offset ['-'] id chars
  | letters => (namedZone? letters).map fun seconds => (seconds, chars.dropWhile isLetter)

/-- What follows a comment whose parentheses are `depth` deep in front. A backslash
takes the next character with it. -/
def afterComment : (depth : Nat) → (escaped : Bool) → List Char → Option (List Char)
  | _, _, [] => none
  | depth, true, _ :: rest => afterComment depth false rest
  | depth, false, c :: rest =>
    if c = '\\' then afterComment depth true rest
    else if c = '(' then afterComment (depth + 1) false rest
    else if c = ')' then if depth = 1 then some rest else afterComment (depth - 1) false rest
    else afterComment depth false rest

/-- What follows the comments in front, at most `most` of them. -/
def skipComments : (most : Nat) → List Char → List Char
  | 0, chars => chars
  | most + 1, chars =>
    match skipBlank chars with
    | '(' :: rest =>
      match afterComment 1 false rest with
      | some left => skipComments most left
      | none => chars
    | _ => chars

/-- The year of a mail header: two digits mean 1950 to 2049, three count from
1900. -/
def mailYear : Reader Int := fun chars => do
  let (value, rest) ← number 2 none chars
  let length := chars.length - rest.length
  let full :=
    if length = 2 then (if value < 50 then value + 2000 else value + 1900)
    else if length = 3 then value + 1900
    else value
  return (full, rest)

/-- A day of the week and a comma, which may be left out together. -/
def mailWeekday (chars : List Char) : Option (Option Nat × List Char) :=
  match name weekdayNames chars with
  | some (day, rest) => do
    let ((), rest) ← char ',' rest
    return (some day, rest)
  | none => some (none, chars)

/-- A colon and the seconds, which may be left out together. -/
def mailSecond (chars : List Char) : Option (Int × List Char) :=
  match char ':' (skipBlank chars) with
  | some ((), rest) => number 2 (some 2) rest
  | none => some (0, chars)

/-- The date of a mail header. -/
def mailDate : Reader Fields := fun chars => do
  let (w, rest) ← mailWeekday (skipBlank chars)
  let (d, rest) ← number 1 (some 2) (skipBlank rest)
  let ((), rest) ← blanks rest
  let (m, rest) ← name monthNames rest
  let ((), rest) ← blanks rest
  let (y, rest) ← mailYear rest
  let ((), rest) ← blanks rest
  let (h, rest) ← number 2 (some 2) rest
  let ((), rest) ← char ':' (skipBlank rest)
  let (minute, rest) ← number 2 (some 2) (skipBlank rest)
  let (s, rest) ← mailSecond rest
  let ((), rest) ← blanks rest
  let (o, rest) ← mailZone rest
  return (⟨w, y, Int.ofNat m + 1, d, h, minute, s, o⟩, skipComments rest.length rest)

/-- The value of a reader that leaves nothing. -/
def whole {α : Type} (reader : Reader α) (chars : List Char) : Option α :=
  match reader chars with
  | some (value, []) => some value
  | _ => none

/-- The offset that a whole text writes. -/
def offset? (text : List Char) : Option Int := do
  let seconds ← whole looseOffset (skipBlank text)
  if -daySeconds < seconds ∧ seconds < daySeconds then some seconds else none

/-- Seconds that a date without blanks around it stands for: an integer, or one of
the three forms. -/
def seconds? (chars : List Char) : Option Int :=
  (Text.readInt64Chars chars).toOption
    <|> (whole mailDate chars).bind Fields.seconds?
    <|> (whole dateTime chars).bind Fields.seconds?
    <|> (whole dashedDate chars).bind Fields.seconds?

end Reading

/-- Why a text is no date. -/
structure DateFault where
  text : String
  deriving DecidableEq, Repr

/-- Wording of the fault. -/
def DateFault.message (fault : DateFault) : String := s!"invalid date '{fault.text}'"

/-- Seconds that a date stands for; blanks around it do not count. -/
def parseDate (text : String) : Except DateFault Int :=
  match Reading.seconds? (Text.trimChars text.toList) with
  | some seconds => .ok seconds
  | none => .error ⟨Text.trim text⟩

end Ancestry.Calendar
