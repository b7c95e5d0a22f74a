import Ancestry.Pieces

/-!
# Reading arguments

An argument that begins with a hyphen is a group of one-letter items or, with two
hyphens, one item by its name. Items are switches, which stand alone, or settings, which
take a value: the rest of the group, what follows an equals sign, or the next argument.
Behind two hyphens alone everything is a word. Nothing may be given twice.
-/

namespace Ancestry.CommandLine

/-- What takes no value. -/
inductive Switch where
  | version
  | pickaxePattern
  | ignoreCase
  | noMerges
  | topological
  | reversed
  | oneline
  | abbreviated
  deriving DecidableEq, Repr, Inhabited

/-- What takes a value. -/
inductive Setting where
  | directory
  | pickaxe
  | grep
  | earliest
  | latest
  | maxCount
  | skip
  deriving DecidableEq, Repr, Inhabited

/-- A switch or a setting. -/
inductive Item where
  | switch (switch : Switch)
  | setting (setting : Setting)
  deriving DecidableEq, Repr, Inhabited

/-- The items of a command, and what becomes of words. -/
structure Scope where
  letters : List (Char × Item)
  names : List (String × Item)
  /-- The first word ends the reading; it is the name of a command. -/
  untilWord : Bool

/-- What was given. -/
structure Given where
  switches : List Switch := []
  values : List (Setting × String) := []
  words : List String := []
  deriving DecidableEq, Repr

/-- Why arguments lead to no command: they are refused, or ask for the version. -/
inductive Stop where
  | refused
  | version
  deriving DecidableEq, Repr, Inhabited

namespace Given

instance : Inhabited Given := ⟨{}⟩

/-- The value of a setting. -/
def value? (given : Given) (setting : Setting) : Option String :=
  (given.values.find? (·.1 = setting)).map (·.2)

/-- Turns a switch on. The version is asked for at once. -/
def turnOn (given : Given) (switch : Switch) : Except Stop Given :=
  if switch = .version then .error .version
  else if given.switches.contains switch then .error .refused
  else .ok { given with switches := switch :: given.switches }

/-- Gives a setting a value. -/
def set (given : Given) (setting : Setting) (value : String) : Except Stop Given :=
  if (given.value? setting).isSome then .error .refused
  else .ok { given with values := (setting, value) :: given.values }

end Given

/-- An argument by its form. -/
inductive Shape where
  | escape
  | named (name : String) (value : Option String)
  | letters (letters : List Char)
  | word
  deriving DecidableEq, Repr

/-- The form of an argument. A hyphen alone is a word. -/
def Shape.of (argument : String) : Shape :=
  match argument.toList with
  | ['-', '-'] => .escape
  | '-' :: '-' :: chars =>
    match Pieces.cutFirst '=' chars with
    | (name, value) => .named (String.ofList name) (value.map String.ofList)
  | '-' :: c :: chars => .letters (c :: chars)
  | _ => .word

/-- The value behind a letter, without an equals sign in front. -/
def attached : List Char → String
  | '=' :: chars => String.ofList chars
  | chars => String.ofList chars

/-- Reads a group of letters. A setting at its end waits for its value. -/
def readLetters (scope : Scope) : Given → List Char → Except Stop (Given × Option Setting)
  | given, [] => .ok (given, none)
  | given, c :: rest =>
    match scope.letters.lookup c with
    | none => .error .refused
    | some (.switch switch) =>
      match given.turnOn switch with
      | .error stop => .error stop
      | .ok given => readLetters scope given rest
    | some (.setting setting) =>
      if rest.isEmpty then .ok (given, some setting)
      else (given.set setting (attached rest)).map (·, none)

/-- Reads an item by its name. -/
def readNamed (scope : Scope) (given : Given) (name : String) (value : Option String) :
    Except Stop (Given × Option Setting) :=
  match scope.names.lookup name, value with
  | none, _ => .error .refused
  | some (.switch _), some _ => .error .refused
  | some (.switch switch), none => (given.turnOn switch).map (·, none)
  | some (.setting setting), some value => (given.set setting value).map (·, none)
  | some (.setting setting), none => .ok (given, some setting)

/-- Reads arguments, while a setting may wait for its value. What is left over begins
with the word that ended the reading. -/
def read (scope : Scope) : (waiting : Option Setting) → Given → List String →
    Except Stop (Given × List String)
  | none, given, [] => .ok (given, [])
  | some _, _, [] => .error .refused
  | some setting, given, argument :: rest =>
    match Shape.of argument with
    | .word =>
      match given.set setting argument with
      | .error stop => .error stop
      | .ok given => read scope none given rest
    | _ => .error .refused
  | none, given, argument :: rest =>
    match Shape.of argument with
    | .escape => .ok ({ given with words := given.words ++ rest }, [])
    | .named name value =>
      match readNamed scope given name value with
      | .error stop => .error stop
      | .ok (given, waiting) => read scope waiting given rest
    | .letters letters =>
      match readLetters scope given letters with
      | .error stop => .error stop
      | .ok (given, waiting) => read scope waiting given rest
    | .word =>
      if scope.untilWord then .ok (given, argument :: rest)
      else read scope none { given with words := given.words ++ [argument] } rest

end Ancestry.CommandLine
