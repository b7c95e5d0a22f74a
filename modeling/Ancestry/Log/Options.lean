import Ancestry.Filter
import Ancestry.Walk.Marks

/-!
# What a log shows

A log shows the commits that pass all filters that were asked for. Filters that count
come last, so that they count only commits that passed the others.
-/

namespace Ancestry

/-- What was asked of a log. -/
structure LogOptions where
  /-- Texts of the revisions to start from or to hide. -/
  revisions : List String := []
  /-- What must occur a different number of times. -/
  pickaxe : Option String := none
  /-- The pickaxe text is a pattern. -/
  pickaxeIsPattern : Bool := false
  /-- The pattern that messages must match. -/
  grep : Option String := none
  /-- Messages are matched without regard to case. -/
  ignoreCase : Bool := false
  /-- No commits with several parents. -/
  noMerges : Bool := false
  /-- The earliest second. -/
  earliest : Option Int := none
  /-- The latest second. -/
  latest : Option Int := none
  /-- Greatest number of commits. -/
  maxCount : Option Nat := none
  /-- Number of commits to leave out first. -/
  skip : Option Nat := none
  order : Order := {}
  /-- One line for each commit. -/
  oneline : Bool := false
  /-- Identifiers are shortened. -/
  abbreviated : Bool := false
  deriving DecidableEq

namespace LogOptions

instance : Inhabited LogOptions := ⟨{}⟩

/-- The bounds on times. -/
def window? (options : LogOptions) : Option Window :=
  match options.earliest, options.latest with
  | some earliest, some latest => some (.between earliest latest)
  | some earliest, none => some (.after earliest)
  | none, some latest => some (.before latest)
  | none, none => none

/-- The filter on messages. -/
def messageFilter? (options : LogOptions) : Except Fault (Option Filter) :=
  match options.grep with
  | none => .ok none
  | some text =>
    (MessageSearch.ofText text options.ignoreCase).map fun search => some (.message search)

/-- The filter on numbers of occurrences. -/
def pickaxeFilter? (options : LogOptions) : Except Fault (Option Filter) :=
  match options.pickaxe with
  | none => .ok none
  | some text =>
    (Needle.ofText text options.pickaxeIsPattern).map fun needle => some (.occurrences needle)

/-- All filters together. -/
def filter (options : LogOptions) : Except Fault Filter :=
  match options.messageFilter? with
  | .error fault => .error fault
  | .ok message =>
    match options.pickaxeFilter? with
    | .error fault => .error fault
    | .ok occurrences =>
      .ok (.all ([options.window?.map .window, if options.noMerges then some .noMerges else none,
        message, occurrences, options.skip.map (.skip · 0),
        options.maxCount.map (.atMost · 0)].filterMap id))

end LogOptions

end Ancestry
