import Ancestry.Log.Options
import Ancestry.Object.Commit

/-!
# How a log prints a commit

A commit takes one line, or a block of its identifier, author, date and message. Blocks
have an empty line between them. The identifier may be coloured.
-/

namespace Ancestry.Log

/-- Text in yellow where colours are on. -/
def yellow (coloured : Bool) (text : String) : String :=
  if coloured then "\x1b[33m" ++ text ++ "\x1b[0m" else text

/-- The identifier as it is asked for. -/
def idText (options : LogOptions) (id : ObjectId) : String :=
  if options.abbreviated then id.short else id.toHex

/-- A commit in one line. -/
def line (options : LogOptions) (coloured : Bool) (id : ObjectId) (commit : Commit) : String :=
  yellow coloured (idText options id) ++ " " ++ commit.short ++ "\n"

/-- The lines of a block. -/
def blockLines (options : LogOptions) (coloured : Bool) (id : ObjectId) (commit : Commit) :
    List String :=
  [yellow coloured ("commit " ++ idText options id), "Author: " ++ commit.author.displayName,
    "Date:   " ++ commit.author.time.readable, ""] ++
    (Text.lines commit.message).map ("    " ++ ·)

/-- A commit as a block. -/
def block (options : LogOptions) (coloured : Bool) (id : ObjectId) (commit : Commit) : String :=
  String.join ((blockLines options coloured id commit).map (· ++ "\n"))

/-- A commit as it is asked for. -/
def entry (options : LogOptions) (coloured : Bool) (id : ObjectId) (commit : Commit) : String :=
  if options.oneline then line options coloured id commit else block options coloured id commit

/-- What stands before a commit. -/
def separator (options : LogOptions) (first : Bool) : String :=
  if options.oneline || first then "" else "\n"

end Ancestry.Log
