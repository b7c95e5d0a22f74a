/-!
# Faults of files

What can be wrong with a path or a file. Most faults are those that a system numbers;
two are found before the system is asked or after it has answered, and have no number.
-/

namespace Ancestry

/-- Why a file or directory cannot be used. -/
inductive FileFault where
  | absent
  | busy
  | occupied
  | notDirectory
  | isDirectory
  | nameTooLong
  | zeroByte
  | notText
  deriving DecidableEq, Repr, Inhabited

namespace FileFault

/-- The system's number of a fault. -/
def number? : FileFault → Option Nat
  | .absent => some 2
  | .busy => some 16
  | .occupied => some 17
  | .notDirectory => some 20
  | .isDirectory => some 21
  | .nameTooLong => some 36
  | .zeroByte => none
  | .notText => none

/-- Wording of a fault without its number. -/
def wording : FileFault → String
  | .absent => "No such file or directory"
  | .busy => "Device or resource busy"
  | .occupied => "File exists"
  | .notDirectory => "Not a directory"
  | .isDirectory => "Is a directory"
  | .nameTooLong => "File name too long"
  | .zeroByte => "file name contained an unexpected NUL byte"
  | .notText => "stream did not contain valid UTF-8"

/-- Wording of a fault. -/
def message (fault : FileFault) : String :=
  match fault.number? with
  | some number => s!"{fault.wording} (os error {number})"
  | none => fault.wording

end FileFault

end Ancestry
