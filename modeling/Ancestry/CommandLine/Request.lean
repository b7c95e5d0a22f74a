import Ancestry.Calendar.Reading
import Ancestry.CommandLine.Arguments
import Ancestry.Log.Options

/-!
# Requests

Arguments ask for the version, for a new repository or for a log. The directory may be
given before and behind the name of the command; the one behind it counts.
-/

namespace Ancestry.CommandLine

/-- What is to be done. -/
inductive Command where
  | init (path : Option String)
  | log (options : LogOptions)
  deriving DecidableEq

/-- A command and the directory in which it works. -/
structure Request where
  directory : Option String
  command : Command
  deriving DecidableEq

instance : Inhabited Request := ⟨⟨none, .init none⟩⟩

/-- The setting that every command has. -/
def directoryLetter : Char × Item := ('C', .setting .directory)

/-- What stands before the name of a command. -/
def mainScope : Scope where
  letters := [directoryLetter, ('V', .switch .version)]
  names := [("version", .switch .version)]
  untilWord := true

/-- What may follow `init`. -/
def initScope : Scope where
  letters := [directoryLetter]
  names := []
  untilWord := false

/-- What may follow `log`. -/
def logScope : Scope where
  letters := [directoryLetter, ('S', .setting .pickaxe), ('n', .setting .maxCount),
    ('i', .switch .ignoreCase)]
  names := [("pickaxe-regex", .switch .pickaxePattern), ("grep", .setting .grep),
    ("regexp-ignore-case", .switch .ignoreCase), ("no-merges", .switch .noMerges),
    ("since", .setting .earliest), ("after", .setting .earliest),
    ("until", .setting .latest), ("before", .setting .latest),
    ("max-count", .setting .maxCount), ("skip", .setting .skip),
    ("topo-order", .switch .topological), ("reverse", .switch .reversed),
    ("oneline", .switch .oneline), ("abbrev-commit", .switch .abbreviated)]
  untilWord := false

/-- The value of a setting, read in its own way if there is one. -/
def valueBy? {ε α : Type} (given : Given) (setting : Setting) (reader : String → Except ε α) :
    Except Stop (Option α) :=
  match given.value? setting with
  | none => .ok none
  | some text => ((reader text).map some).mapError fun _ => .refused

/-- The options of a log. -/
def logOptions (given : Given) : Except Stop LogOptions := do
  let earliest ← valueBy? given .earliest Calendar.parseDate
  let latest ← valueBy? given .latest Calendar.parseDate
  let maxCount ← valueBy? given .maxCount Text.readWord
  let skip ← valueBy? given .skip Text.readWord
  let on := fun switch => given.switches.contains switch
  return {
    revisions := given.words
    pickaxe := given.value? .pickaxe
    pickaxeIsPattern := on .pickaxePattern
    grep := given.value? .grep
    ignoreCase := on .ignoreCase
    noMerges := on .noMerges
    earliest, latest, maxCount, skip
    order := ⟨on .topological, on .reversed⟩
    oneline := on .oneline
    abbreviated := on .abbreviated }

/-- The command that a name and what was given behind it make. -/
def command (name : String) (given : Given) : Except Stop Command :=
  if name = "init" then
    match given.words with
    | [] => .ok (.init none)
    | [path] => .ok (.init (some path))
    | _ => .error .refused
  else (logOptions given).map .log

/-- The scope of a command's name. -/
def scopeOf? (name : String) : Option Scope :=
  if name = "init" then some initScope else if name = "log" then some logScope else none

/-- The request that arguments make. -/
def parse (arguments : List String) : Except Stop Request :=
  match read mainScope none {} arguments with
  | .error stop => .error stop
  | .ok (_, []) => .error .refused
  | .ok (before, name :: rest) =>
    match scopeOf? name with
    | none => .error .refused
    | some scope =>
      match read scope none {} rest with
      | .error stop => .error stop
      | .ok (given, _) =>
        (command name given).map
          (⟨given.value? .directory <|> before.value? .directory, ·⟩)

end Ancestry.CommandLine
