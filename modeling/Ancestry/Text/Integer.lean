import Ancestry.Text.Utf8

/-!
# Bounded integers in text

An integer is written as digits, after at most one sign. It is read from the left,
and the first thing that is wrong decides the fault: a character that is no digit,
or the digit that takes the value past its bound. A sign alone is a character that
is no digit.
-/

namespace Ancestry.Text

/-- Why a text is no integer of the wanted range. -/
inductive IntegerFault where
  | empty
  | digit
  | large
  | small
  deriving DecidableEq, Repr

/-- Wording of the faults. -/
def IntegerFault.message : IntegerFault → String
  | .empty => "cannot parse integer from empty string"
  | .digit => "invalid digit found in string"
  | .large => "number too large to fit in target type"
  | .small => "number too small to fit in target type"

/-- Value of a digit character below the radix. -/
def digit? (radix : Nat) (c : Char) : Option Nat :=
  if '0' ≤ c ∧ c ≤ '9' ∧ c.toNat - 48 < radix then some (c.toNat - 48) else none

/-- Appends digits to a value that must not pass `bound`; `past` names the fault
of passing it. -/
def readDigits (radix bound : Nat) (past : IntegerFault) : (value : Nat) → List Char →
    Except IntegerFault Nat
  | value, [] => .ok value
  | value, c :: rest =>
    match digit? radix c with
    | none => .error .digit
    | some d =>
      if value * radix + d ≤ bound then readDigits radix bound past (value * radix + d) rest
      else .error past

/-- Reads a natural number of at most `bound`; a plus sign may lead. -/
def readNat (radix bound : Nat) : List Char → Except IntegerFault Nat
  | [] => .error .empty
  | ['+'] => .error .digit
  | '+' :: digits => readDigits radix bound .large 0 digits
  | digits => readDigits radix bound .large 0 digits

/-- Greatest number of a machine word of 64 bits. -/
def wordMax : Nat := Nat.pow 2 64 - 1

/-- Reads a number that fits a machine word. -/
def readWord (text : String) : Except IntegerFault Nat := readNat 10 wordMax text.toList

/-- Reads an integer of 64 bits in two's complement; a sign may lead. -/
def readInt64Chars : List Char → Except IntegerFault Int
  | [] => .error .empty
  | ['+'] => .error .digit
  | ['-'] => .error .digit
  | '+' :: digits => (readDigits 10 (Nat.pow 2 63 - 1) .large 0 digits).map Int.ofNat
  | '-' :: digits =>
    (readDigits 10 (Nat.pow 2 63) .small 0 digits).map fun value => -Int.ofNat value
  | digits => (readDigits 10 (Nat.pow 2 63 - 1) .large 0 digits).map Int.ofNat

/-- Reads an integer of 64 bits from a text. -/
def readInt64 (text : String) : Except IntegerFault Int := readInt64Chars text.toList

/-- The digits of a number in a radix of at most sixteen, most significant first. -/
def digits (radix value : Nat) : String := String.ofList (Nat.toDigits radix value)

/-- Digits in front of which zeros fill a width. -/
def padded (width value : Nat) : String :=
  let written := Nat.toDigits 10 value
  String.ofList (List.replicate (width - written.length) '0' ++ written)

end Ancestry.Text
