import Ancestry.Proofs.FileSystem.Changes
import Ancestry.Proofs.Text.Cutting
import Ancestry.Proofs.Text.Hexadecimal
import Ancestry.Proofs.Text.Lines
import Ancestry.Reference.Files

/-!
# What a reference file holds

A reference file holds the path of another reference or an identifier, and a file that is absent
or blank holds nothing. The content of a file is read off exactly one of these, and the line of an
identifier is read as the identifier.
-/

namespace Ancestry.RefFiles

open FileSystem

variable {files : FileSystem} {path : Path} {next : RefName} {text : String} {id : ObjectId}

/-- A file holds the path of another reference, in one line. -/
structure Points (files : FileSystem) (path : Path) (next : RefName) : Prop where
  present : files.hasFile path = true
  spelled : ∃ text, files.readText path = .ok text ∧ Text.trim text = "ref: " ++ next.path
  filled : next.path ≠ ""
  oneLine : '\n' ∉ next.path.toList

/-- A file holds an identifier, or nothing when it is absent or blank. -/
def Stores (files : FileSystem) (path : Path) : Option ObjectId → Prop
  | none => files.hasFile path = false ∨
    files.hasFile path = true ∧ ∃ text, files.readText path = .ok text ∧ Text.trim text = ""
  | some id => files.hasFile path = true ∧
    ∃ text, files.readText path = .ok text ∧ ObjectId.parse (Text.trim text) = .ok id

/-- What stands behind the mark of a symbolic reference is its target, when it is a line. -/
theorem target?_eq_some : target? text.toList = some next ↔
    text = "ref: " ++ next.path ∧ next.path ≠ "" ∧ '\n' ∉ next.path.toList := by
  have spelled (rest : List Char) :
      Pieces.afterStart? "ref: ".toList text.toList = some rest ↔
        text = "ref: " ++ String.ofList rest := by
    rw [Pieces.afterStart?_eq_some, ← String.toList_inj, String.toList_append,
      String.toList_ofList (l := rest)]
  rw [target?]
  constructor
  · intro found
    split at found
    · cases found
    · cases found
    · rename_i rest filled cut
      split at found
      · cases found
      · rename_i line
        obtain rfl := Option.some.inj found
        refine ⟨(spelled rest).mp cut, fun nothing => filled ?_, by simpa using line⟩
        exact String.ofList_eq_empty_iff.mp nothing
  · rintro ⟨rfl, filled, line⟩
    have cut := (spelled next.path.toList).mpr (by rw [String.ofList_toList])
    split
    · rename_i uncut
      rw [uncut] at cut
      cases cut
    · rename_i empty
      rw [empty] at cut
      exact absurd (String.toList_eq_nil_iff.mp (Option.some.inj cut).symm) filled
    · rename_i rest _ found
      obtain rfl := Option.some.inj (found.symm.trans cut)
      rw [if_neg (by simpa using line), String.ofList_toList]

/-- What is read as an identifier is no path of a reference. -/
theorem target?_of_parse (read : ObjectId.parse text = .ok id) : target? text.toList = none := by
  cases found : target? text.toList with
  | none => rfl
  | some next =>
    obtain ⟨rfl, _⟩ := target?_eq_some.mp found
    rw [ObjectId.parse] at read
    split at read
    · cases read
    · rw [String.toList_append] at read
      cases read

/-- The content of a file that is absent or blank is nothing, and no other file's. -/
theorem content?_none : content? files path = .ok none ↔ Stores files path none := by
  rw [content?, Stores]
  cases present : files.hasFile path with
  | false => simp
  | true =>
    cases read : files.readText path with
    | error fault => simp
    | ok text =>
      by_cases blank : Text.trim text = ""
      · simp [blank]
      · cases held : contentOf (Text.trim text) <;> simp [blank, held]

/-- The content of a file is an identifier when it is spelled there. -/
theorem content?_direct : content? files path = .ok (some (.direct id)) ↔
    Stores files path (some id) := by
  rw [content?, Stores]
  cases present : files.hasFile path with
  | false => simp
  | true =>
    cases read : files.readText path with
    | error fault => simp
    | ok text =>
      by_cases blank : Text.trim text = ""
      · have unread : ObjectId.parse "" ≠ .ok id := by
          rw [ObjectId.parse, if_pos (by decide)]
          rintro ⟨⟩
        simp [blank, unread]
      · cases held : ObjectId.parse (Text.trim text) with
        | ok other => simp [blank, contentOf, target?_of_parse held, held, Except.map]
        | error fault =>
          cases aim : target? (Text.trim text).toList <;>
            simp [blank, contentOf, aim, held, Except.map]

/-- The content of a file is a reference when its path is spelled there. -/
theorem content?_symbolic : content? files path = .ok (some (.symbolic next)) ↔
    Points files path next := by
  have spelled : Points files path next ↔ files.hasFile path = true ∧
      ∃ text, files.readText path = .ok text ∧
        target? (Text.trim text).toList = some next := by
    simp only [target?_eq_some]
    constructor
    · rintro ⟨present, ⟨text, read, trimmed⟩, filled, oneLine⟩
      exact ⟨present, text, read, trimmed, filled, oneLine⟩
    · rintro ⟨present, text, read, trimmed, filled, oneLine⟩
      exact ⟨present, ⟨text, read, trimmed⟩, filled, oneLine⟩
  rw [spelled, content?]
  cases present : files.hasFile path with
  | false => simp
  | true =>
    cases read : files.readText path with
    | error fault => simp
    | ok text =>
      by_cases blank : Text.trim text = ""
      · simp [blank, target?, Pieces.afterStart?]
      · cases aim : target? (Text.trim text).toList with
        | some target => simp [blank, contentOf, aim]
        | none =>
          cases held : ObjectId.parse (Text.trim text) <;>
            simp [blank, contentOf, aim, held, Except.map]

/-- The line of an identifier is trimmed to its digits. -/
theorem trim_line (id : ObjectId) : Text.trim (id.toHex ++ "\n") = id.toHex := by
  have plain : ∀ c ∈ id.hexChars, Text.isBlank c = false := by
    have each : ∀ value < 16, Text.isBlank (ObjectId.hexDigit value) = false := by decide
    intro c member
    obtain ⟨value, below, rfl⟩ := ObjectId.mem_hexOfBytes member
    exact each value below
  rw [Text.trim, String.toList_append, ObjectId.toHex, String.toList_ofList]
  exact congrArg String.ofList (Text.trimChars_append (Text.trimChars_plain plain) (by decide))

/-- A file of a text is read as the text. -/
theorem readText_of_find {place : Location} (found : files.find path = .ok place)
    (stands : files.entry? place = some (.file (Utf8.encode text))) :
    files.hasFile path = true ∧ files.readText path = .ok text := by
  constructor
  · exact hasFile_iff.mpr ⟨place, _, found, stands⟩
  · rw [readText, FileSystem.read, found]
    simp only [stands, Utf8.decode_encode]

/-- A file that holds the line of an identifier stores the identifier. -/
theorem stores_of_line {place : Location} (found : files.find path = .ok place)
    (stands : files.entry? place = some (.file (Utf8.encode (id.toHex ++ "\n")))) :
    Stores files path (some id) := by
  obtain ⟨present, read⟩ := readText_of_find found stands
  exact ⟨present, _, read, by rw [trim_line, id.parse_toHex]⟩

end Ancestry.RefFiles
