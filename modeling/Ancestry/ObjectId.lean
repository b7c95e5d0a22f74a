import Ancestry.Text.Utf8

/-!
# Object identifiers

An object is named by twenty bytes, the digest of its stored form. In text the
bytes are forty hexadecimal digits, two a byte; either letter case is read and
lower case is written. The identifier of zero bytes names no stored object and
stands for an absent one.
-/

namespace Ancestry

/-- Twenty bytes that name an object. -/
structure ObjectId where
  bytes : Vector UInt8 20
  deriving DecidableEq, Inhabited

namespace ObjectId

/-- Identifiers are ordered as their bytes, first byte first. -/
instance : Ord ObjectId where
  compare left right := compare left.bytes right.bytes

instance : Std.TransOrd ObjectId where
  eq_swap := fun {a b} =>
    @Std.OrientedCmp.eq_swap (Vector UInt8 20) compare _ a.bytes b.bytes
  isLE_trans := fun {a b c} =>
    @Std.TransCmp.isLE_trans (Vector UInt8 20) compare _ a.bytes b.bytes c.bytes

instance : Std.LawfulEqOrd ObjectId where
  eq_of_compare := fun {a b} same =>
    have bytes : a.bytes = b.bytes :=
      @Std.LawfulEqCmp.eq_of_compare (Vector UInt8 20) compare _ a.bytes b.bytes same
    match a, b, bytes with
    | ⟨_⟩, ⟨_⟩, rfl => rfl

/-- Number of identifiers there are. -/
def total : Nat := Nat.pow 256 20

/-- The identifier that names no object. -/
def zero : ObjectId := ⟨Vector.replicate 20 0⟩

/-- Stands for an absent object. -/
def isZero (id : ObjectId) : Bool := id = zero

/-- The bytes in order. -/
def toBytes (id : ObjectId) : Bytes := id.bytes.toList

/-- The identifier of exactly twenty bytes. -/
def ofBytes? (bytes : Bytes) : Option ObjectId :=
  if sized : bytes.length = 20 then some ⟨⟨bytes.toArray, by simpa using sized⟩⟩ else none

/-- A hexadecimal digit below sixteen, in lower case. -/
def hexDigit (value : Nat) : Char :=
  if value < 10 then Char.ofNat (48 + value) else Char.ofNat (87 + value)

/-- Value of a hexadecimal digit of either case. -/
def hexValue? (c : Char) : Option Nat :=
  if '0' ≤ c ∧ c ≤ '9' then some (c.toNat - 48)
  else if 'a' ≤ c ∧ c ≤ 'f' then some (c.toNat - 87)
  else if 'A' ≤ c ∧ c ≤ 'F' then some (c.toNat - 55)
  else none

/-- A character that is a hexadecimal digit. -/
def isHex (c : Char) : Bool := (hexValue? c).isSome

/-- Two digits a byte. -/
def hexOfBytes (bytes : Bytes) : List Char :=
  bytes.flatMap fun byte => [hexDigit (byte.toNat / 16), hexDigit (byte.toNat % 16)]

/-- Bytes of an even number of digits. -/
def bytesOfHex? : List Char → Option Bytes
  | [] => some []
  | [_] => none
  | high :: low :: rest => do
    let h ← hexValue? high
    let l ← hexValue? low
    let bytes ← bytesOfHex? rest
    return UInt8.ofNat (h * 16 + l) :: bytes

/-- The forty digits of an identifier. -/
def hexChars (id : ObjectId) : List Char := hexOfBytes id.toBytes

/-- The forty digits of an identifier as a text. -/
def toHex (id : ObjectId) : String := String.ofList id.hexChars

instance : ToString ObjectId := ⟨toHex⟩

/-- The first seven digits. -/
def short (id : ObjectId) : String := String.ofList (id.hexChars.take 7)

/-- Why a text names no object. Lengths count the bytes of the text. -/
inductive Fault where
  | length (size : Nat)
  | characters (text : String)
  deriving DecidableEq, Repr

/-- Wording of the faults. -/
def Fault.message : Fault → String
  | .length size => s!"Invalid object ID length: {size}"
  | .characters text => s!"Invalid object ID characters: {text}"

/-- Reads forty hexadecimal digits of either case. The length is checked first. -/
def parse (text : String) : Except Fault ObjectId :=
  if Utf8.size text ≠ 40 then .error (.length (Utf8.size text))
  else
    match (bytesOfHex? text.toList).bind ofBytes? with
    | some id => .ok id
    | none => .error (.characters text)

/-- Directory and file under which a loose object is kept: the first two digits
and the rest. -/
def loosePath (id : ObjectId) : String × String :=
  (String.ofList (id.hexChars.take 2), String.ofList (id.hexChars.drop 2))

end ObjectId

end Ancestry
