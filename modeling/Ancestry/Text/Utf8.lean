/-!
# UTF-8

A byte string is cut into heads: whole characters, runs of bytes that begin a
character and are then broken by a byte that cannot follow, and one run that the
end of the string cuts off. Every head holds at least one byte and the heads
together hold every byte once, so reading is total.

Lenient reading puts U+FFFD for each head that is no character. Strict reading
stops at the first such head and says where it begins and how long it is.
-/

namespace Ancestry

/-- A byte string. -/
abbrev Bytes := List UInt8

namespace Utf8

/-- The character put in place of bytes that are no character. -/
def replacement : Char := Char.ofNat 0xFFFD

/-- How a byte string begins. Each case counts the bytes after the first that
belong to it. -/
inductive Head where
  /-- A complete character. -/
  | whole (char : Char) (more : Nat)
  /-- The beginning of a character, broken by a byte that cannot follow. -/
  | broken (more : Nat)
  /-- The beginning of a character, cut off by the end of the string. -/
  | cut (more : Nat)
  deriving DecidableEq, Repr

/-- Number of bytes of a head after its first. -/
def Head.more : Head → Nat
  | .whole _ more => more
  | .broken more => more
  | .cut more => more

/-- The character that lenient reading puts for a head. -/
def Head.char : Head → Char
  | .whole char _ => char
  | .broken _ => replacement
  | .cut _ => replacement

/-- A byte between two bounds. -/
def within (low high byte : UInt8) : Bool := low ≤ byte && byte ≤ high

/-- A byte that continues a character. -/
def continues (byte : UInt8) : Bool := within 0x80 0xBF byte

/-- The six bits that a continuing byte carries. -/
def payload (byte : UInt8) : Nat := byte.toNat % 64

/-- A character of two bytes. -/
def head2 (first : UInt8) : Bytes → Head
  | [] => .cut 0
  | second :: _ =>
    if continues second then .whole (Char.ofNat (first.toNat % 32 * 64 + payload second)) 1
    else .broken 0

/-- A character of three bytes whose second byte lies between two bounds. -/
def head3 (low high first : UInt8) : Bytes → Head
  | [] => .cut 0
  | second :: rest =>
    if within low high second then
      match rest with
      | [] => .cut 1
      | third :: _ =>
        if continues third then
          .whole (Char.ofNat (first.toNat % 16 * 4096 + payload second * 64 + payload third)) 2
        else .broken 1
    else .broken 0

/-- A character of four bytes whose second byte lies between two bounds. -/
def head4 (low high first : UInt8) : Bytes → Head
  | [] => .cut 0
  | second :: rest =>
    if within low high second then
      match rest with
      | [] => .cut 1
      | third :: rest =>
        if continues third then
          match rest with
          | [] => .cut 2
          | fourth :: _ =>
            if continues fourth then
              .whole (Char.ofNat (first.toNat % 8 * 262144 + payload second * 4096 +
                payload third * 64 + payload fourth)) 3
            else .broken 2
        else .broken 1
    else .broken 0

/-- The head that a first byte and the bytes after it form. The bounds on the
second byte leave out overlong forms, surrogates and values above U+10FFFF. -/
def head (first : UInt8) (rest : Bytes) : Head :=
  if first < 0x80 then .whole (Char.ofNat first.toNat) 0
  else if first < 0xC2 then .broken 0
  else if first < 0xE0 then head2 first rest
  else if first = 0xE0 then head3 0xA0 0xBF first rest
  else if first = 0xED then head3 0x80 0x9F first rest
  else if first < 0xF0 then head3 0x80 0xBF first rest
  else if first = 0xF0 then head4 0x90 0xBF first rest
  else if first < 0xF4 then head4 0x80 0xBF first rest
  else if first = 0xF4 then head4 0x80 0x8F first rest
  else .broken 0

/-- The heads of a byte string, where the first `skip` bytes belong to a head
already listed. -/
def scan : (skip : Nat) → Bytes → List Head
  | _, [] => []
  | skip + 1, _ :: rest => scan skip rest
  | 0, first :: rest => head first rest :: scan (head first rest).more rest

/-- The heads of a byte string. -/
def heads (bytes : Bytes) : List Head := scan 0 bytes

/-- Lenient reading: every head gives one character. -/
def decodeLossy (bytes : Bytes) : String := String.ofList ((heads bytes).map Head.char)

/-- Why strict reading failed. -/
inductive Fault where
  /-- `length` bytes from `index` on are no character. -/
  | invalid (length index : Nat)
  /-- The string ends within a character that begins at `index`. -/
  | incomplete (index : Nat)
  deriving DecidableEq, Repr

/-- Wording of a strict reading's failure. -/
def Fault.message : Fault → String
  | .invalid length index => s!"invalid utf-8 sequence of {length} bytes from index {index}"
  | .incomplete index => s!"incomplete utf-8 byte sequence from index {index}"

/-- Characters of a list of heads that begins at `index`, up to the first head
that is none. -/
def strictChars : (index : Nat) → List Head → Except Fault (List Char)
  | _, [] => .ok []
  | index, .whole char more :: rest => (strictChars (index + more + 1) rest).map (char :: ·)
  | index, .broken more :: _ => .error (.invalid (more + 1) index)
  | index, .cut _ :: _ => .error (.incomplete index)

/-- Strict reading. -/
def decode (bytes : Bytes) : Except Fault String :=
  (strictChars 0 (heads bytes)).map String.ofList

/-- The bytes of a text. -/
def encode (text : String) : Bytes := text.toList.flatMap String.utf8EncodeChar

/-- Number of bytes of a text. -/
def size (text : String) : Nat := (encode text).length

end Utf8

end Ancestry
