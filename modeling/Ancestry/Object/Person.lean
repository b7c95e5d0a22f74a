import Ancestry.Calendar.Reading

/-!
# People of a commit

A person of a commit has a name, an e-mail address and the instant at which the
person acted. In text these are the name, the address in angle brackets, the seconds
of the instant and its offset, separated by single spaces. Reading starts from the
right, so that names may hold spaces; the address reaches from the first opening to
the last closing bracket.
-/

namespace Ancestry

open Calendar

/-- Name, address and instant. -/
structure Person where
  name : String
  email : String
  time : Instant
  deriving DecidableEq, Repr, Inhabited

/-- Why a text is no person. -/
inductive PersonFault where
  | parts
  | seconds
  | noOpening
  | noClosing
  | reversed
  | offset
  deriving DecidableEq, Repr

/-- Wording of the faults. -/
def PersonFault.message : PersonFault → String
  | .parts => "Invalid author format"
  | .seconds => "Invalid timestamp"
  | .noOpening => "Invalid author format: missing '<'"
  | .noClosing => "Invalid author format: missing '>'"
  | .reversed => "Invalid author format: '>' before '<'"
  | .offset => "Invalid timezone"

namespace Person

/-- Name and address. -/
def displayName (person : Person) : String := person.name ++ " <" ++ person.email ++ ">"

/-- The person as written in a commit. -/
def display (person : Person) : String :=
  person.displayName ++ " " ++ toString person.time.seconds ++ " " ++ person.time.zone

/-- Reads name and address; blanks around the name do not count. -/
def parseName (chars : List Char) : Except PersonFault (String × String) :=
  match Pieces.cutFirst '<' chars with
  | (_, none) => .error .noOpening
  | (name, some _) =>
    match Pieces.cutLast? '>' chars with
    | none => .error .noClosing
    | some (before, _) =>
      if before.length < name.length then .error .reversed
      else
        .ok (String.ofList (Text.trimChars name), String.ofList (before.drop (name.length + 1)))

/-- Seconds that are those of an instant. -/
def checkSeconds (seconds : Int) : Except PersonFault Int :=
  if firstSecond ≤ seconds ∧ seconds ≤ lastSecond then .ok seconds else .error .seconds

/-- Reads a person. The seconds must be an integer before name and address are looked
at, and must be those of an instant after all else. -/
def parse (text : String) : Except PersonFault Person :=
  match Pieces.cutLast? ' ' text.toList with
  | none => .error .parts
  | some (front, zone) =>
    match Pieces.cutLast? ' ' front with
    | none => .error .parts
    | some (front, digits) => do
      let seconds ← (Text.readInt64Chars digits).mapError fun _ => PersonFault.seconds
      let (name, email) ← parseName front
      match Reading.offset? zone with
      | none => throw .offset
      | some offset =>
        let seconds ← checkSeconds seconds
        return ⟨name, email, ⟨seconds, offset⟩⟩

end Person

end Ancestry
