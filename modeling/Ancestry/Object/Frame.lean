import Ancestry.Digest.Sha1
import Ancestry.Pieces
import Ancestry.Text.Integer
import Ancestry.Text.Quoted

/-!
# Framed objects

An object is a kind and a payload. Its stored form puts a header in front of the
payload: the kind, a space, the payload's length in decimal digits and a zero byte.
The identifier of an object is the digest of its stored form.
-/

namespace Ancestry

/-- What an object is. -/
inductive Kind where
  | blob
  | tree
  | commit
  | tag
  deriving DecidableEq, Repr, Inhabited

/-- The name of a kind. -/
def Kind.name : Kind → String
  | .blob => "blob"
  | .tree => "tree"
  | .commit => "commit"
  | .tag => "tag"

/-- The kind of a name. -/
def Kind.ofName? (name : String) : Option Kind :=
  if name = "blob" then some .blob
  else if name = "tree" then some .tree
  else if name = "commit" then some .commit
  else if name = "tag" then some .tag
  else none

/-- Naming a kind and reading the name gives it back. -/
theorem Kind.ofName?_name (kind : Kind) : Kind.ofName? kind.name = some kind := by
  cases kind <;> decide

/-- A kind and a payload. -/
structure Object where
  kind : Kind
  payload : Bytes
  deriving DecidableEq, Repr, Inhabited

/-- Why a stored form is no object. -/
inductive FrameFault where
  | kindUnended
  | kindText (fault : Utf8.Fault)
  | kindUnknown (name : String)
  | sizeUnended
  | sizeText (fault : Utf8.Fault)
  | sizeNumber (fault : Text.IntegerFault)
  | sizeDiffers (declared found : Nat)
  deriving DecidableEq, Repr

/-- Wording of the faults. -/
def FrameFault.message : FrameFault → String
  | .kindUnended => "unexpected EOF in object type"
  | .kindText fault => fault.message
  | .kindUnknown name => s!"Invalid object type {Text.Quoted.encode name}"
  | .sizeUnended => "unexpected EOF in object size"
  | .sizeText fault => fault.message
  | .sizeNumber fault => fault.message
  | .sizeDiffers declared found => s!"declared size {declared}, found {found}"

/-- A header and the bytes after it. -/
structure Header where
  kind : Kind
  size : Nat
  rest : Bytes
  deriving DecidableEq, Repr

/-- The kind in front of a stored form and the bytes after its space. -/
def Header.readKind (bytes : Bytes) : Except FrameFault (Kind × Bytes) :=
  match Pieces.cutFirst 0x20 bytes with
  | (_, none) => .error .kindUnended
  | (name, some rest) =>
    match Utf8.decode name with
    | .error fault => .error (.kindText fault)
    | .ok name =>
      match Kind.ofName? name with
      | none => .error (.kindUnknown name)
      | some kind => .ok (kind, rest)

/-- The size in front of some bytes and the bytes after its zero byte. -/
def Header.readSize (bytes : Bytes) : Except FrameFault (Nat × Bytes) :=
  match Pieces.cutFirst 0 bytes with
  | (_, none) => .error .sizeUnended
  | (digits, some rest) =>
    match Utf8.decode digits with
    | .error fault => .error (.sizeText fault)
    | .ok digits =>
      match Text.readWord digits with
      | .error fault => .error (.sizeNumber fault)
      | .ok size => .ok (size, rest)

/-- Reads a header: the kind, then the size. -/
def Header.read (bytes : Bytes) : Except FrameFault Header := do
  let (kind, rest) ← Header.readKind bytes
  let (size, rest) ← Header.readSize rest
  return ⟨kind, size, rest⟩

namespace Object

/-- The header of an object's stored form. -/
def headerBytes (object : Object) : Bytes :=
  Utf8.encode (object.kind.name ++ " " ++ Text.digits 10 object.payload.length) ++ [0]

/-- The stored form of an object. -/
def frame (object : Object) : Bytes := object.headerBytes ++ object.payload

/-- The identifier of an object. -/
def id (object : Object) : ObjectId := Sha1.digest object.frame

/-- Reads a stored form, whose payload must have the declared length. -/
def ofFrame (bytes : Bytes) : Except FrameFault Object := do
  let header ← Header.read bytes
  if header.rest.length = header.size then return ⟨header.kind, header.rest⟩
  else throw (.sizeDiffers header.size header.rest.length)

end Object

end Ancestry
