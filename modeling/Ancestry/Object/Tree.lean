import Ancestry.Object.Frame
import Std.Data.TreeMap

/-!
# Trees

A tree maps names to modes and identifiers. In its payload every entry is the mode in
octal digits, a space, the name, a zero byte and the twenty bytes of the identifier.
Entries are written in the order of their names' bytes, where a directory's name
counts as if it ended in a slash. They may be read in any order, and the last entry of
a name stays.
-/

namespace Ancestry

/-- What an entry of a tree is. -/
inductive EntryMode where
  | regular
  | executable
  | symlink
  | directory
  | gitlink
  deriving DecidableEq, Repr, Inhabited

/-- Why a text is no mode. -/
inductive ModeFault where
  | number (fault : Text.IntegerFault)
  | unsupported (value : Nat)
  deriving DecidableEq, Repr

/-- Wording of the faults. -/
def ModeFault.message : ModeFault → String
  | .number fault => fault.message
  | .unsupported value => s!"Unsupported entry mode {Text.digits 8 value}"

namespace EntryMode

/-- The mode as a number. -/
def toNat : EntryMode → Nat
  | .regular => 0o100644
  | .executable => 0o100755
  | .symlink => 0o120000
  | .directory => 0o40000
  | .gitlink => 0o160000

/-- The mode of a number. A file that its group may write is regular. -/
def ofNat? (value : Nat) : Option EntryMode :=
  if value = 0o100644 ∨ value = 0o100664 then some .regular
  else if value = 0o100755 then some .executable
  else if value = 0o120000 then some .symlink
  else if value = 0o40000 then some .directory
  else if value = 0o160000 then some .gitlink
  else none

/-- A mode's number means that mode. -/
theorem ofNat?_toNat (mode : EntryMode) : ofNat? mode.toNat = some mode := by
  cases mode <;> decide

/-- The octal digits of a mode. -/
def octal (mode : EntryMode) : String := Text.digits 8 mode.toNat

/-- Reads octal digits of at most 32 bits. -/
def parse (text : String) : Except ModeFault EntryMode :=
  match Text.readNat 8 (Nat.pow 2 32 - 1) text.toList with
  | .error fault => .error (.number fault)
  | .ok value =>
    match ofNat? value with
    | some mode => .ok mode
    | none => .error (.unsupported value)

/-- Names another tree. -/
def isTree : EntryMode → Bool
  | .directory => true
  | _ => false

/-- Names a commit of another repository. -/
def isGitlink : EntryMode → Bool
  | .gitlink => true
  | _ => false

end EntryMode

/-- An entry of a tree without its name. -/
structure TreeEntry where
  id : ObjectId
  mode : EntryMode
  deriving DecidableEq, Inhabited

/-- Entries by name. -/
abbrev TreeEntries := Std.TreeMap String TreeEntry

/-- Why a payload is no tree. -/
inductive TreeFault where
  | modeUnended
  | modeText (fault : Utf8.Fault)
  | mode (fault : ModeFault)
  | nameUnended
  | idUnended
  deriving DecidableEq, Repr

/-- Wording of the faults, outermost text first. -/
def TreeFault.texts : TreeFault → List String
  | .modeUnended => ["unexpected EOF in mode"]
  | .modeText fault => [fault.message]
  | .mode fault => [fault.message]
  | .nameUnended => ["unexpected EOF in name"]
  | .idUnended => ["unexpected EOF in object id", "failed to fill whole buffer"]

namespace Tree

/-- The name under which an entry is sorted for writing. -/
def sortName (name : String) (entry : TreeEntry) : String :=
  if entry.mode.isTree then name ++ "/" else name

/-- Entries in the order in which they are written. -/
def writtenOrder (entries : TreeEntries) : List (String × TreeEntry) :=
  entries.toList.mergeSort fun a b => (compare (sortName a.1 a.2) (sortName b.1 b.2)).isLE

/-- The bytes of one entry. -/
def entryBytes (name : String) (entry : TreeEntry) : Bytes :=
  Utf8.encode (entry.mode.octal ++ " " ++ name) ++ 0 :: entry.id.toBytes

/-- The payload of a tree. -/
def payload (entries : TreeEntries) : Bytes :=
  (writtenOrder entries).flatMap fun (name, entry) => entryBytes name entry

/-- The object of a tree. -/
def toObject (entries : TreeEntries) : Object := ⟨.tree, payload entries⟩

/-- Reads the mode in front of some bytes. -/
def readMode (bytes : Bytes) : Except TreeFault (EntryMode × Bytes) :=
  match Pieces.cutFirst 0x20 bytes with
  | (_, none) => .error .modeUnended
  | (digits, some rest) =>
    match Utf8.decode digits with
    | .error fault => .error (.modeText fault)
    | .ok digits =>
      match EntryMode.parse digits with
      | .error fault => .error (.mode fault)
      | .ok mode => .ok (mode, rest)

/-- Reads one entry: the mode, the name and the identifier. -/
def readEntry (bytes : Bytes) : Except TreeFault ((String × TreeEntry) × Bytes) :=
  match readMode bytes with
  | .error fault => .error fault
  | .ok (mode, rest) =>
    match Pieces.cutFirst 0 rest with
    | (_, none) => .error .nameUnended
    | (name, some rest) =>
      match ObjectId.ofBytes? (rest.take 20) with
      | none => .error .idUnended
      | some id => .ok ((Utf8.decodeLossy name, ⟨id, mode⟩), rest.drop 20)

/-- Reads entries until no byte is left, at most `most` of them. -/
def readEntries : (most : Nat) → Bytes → TreeEntries → Except TreeFault TreeEntries
  | _, [], entries => .ok entries
  | 0, _ :: _, entries => .ok entries
  | most + 1, bytes, entries =>
    match readEntry bytes with
    | .error fault => .error fault
    | .ok ((name, entry), rest) => readEntries most rest (entries.insert name entry)

/-- Reads a payload. No entry is empty, so that there are at most as many entries as
bytes. -/
def parse (bytes : Bytes) : Except TreeFault TreeEntries := readEntries bytes.length bytes ∅

end Tree

end Ancestry
