import Ancestry.Log.Printing
import Ancestry.Repository.Resolution
import Ancestry.Walk.Run

/-!
# The log of a repository

A log walks from the revisions that it was given, or from what is checked out when it
was given none to start from, and prints each commit that the walk gives out. What was
printed before a failure stays printed.
-/

namespace Ancestry.Log

/-- An operation on a walk and a graph, with the failures of a command. -/
abbrev Step := Walk → Graph → Except Failure Unit × Walk × Graph

/-- Does something to a walk with the commit of a revision. -/
def withRevision (repository : Repository) (revision : Revision)
    (action : ObjectId → Walk.Action Unit) : Step :=
  fun walk graph =>
    match repository.resolve revision graph with
    | (.error failure, graph) => (.error failure, walk, graph)
    | (.ok id, graph) =>
      match action id walk graph with
      | (result, walk, graph) => (result.mapError .fault, walk, graph)

/-- Starts from a revision. -/
def startFrom (repository : Repository) (revision : Revision) : Step :=
  withRevision repository revision (Walk.markStart repository.source)

/-- Hides a revision. -/
def hideFrom (repository : Repository) (revision : Revision) : Step :=
  withRevision repository revision (Walk.hide repository.source)

/-- Does what an argument asks for. The older side of a range is hidden before the newer
one is started from. -/
def markArgument (repository : Repository) : RevisionArg → Step
  | .included revision => startFrom repository revision
  | .excluded revision => hideFrom repository revision
  | .range older newer => fun walk graph =>
    match hideFrom repository older walk graph with
    | (.error failure, walk, graph) => (.error failure, walk, graph)
    | (.ok (), walk, graph) => startFrom repository newer walk graph

/-- Names a commit to start from. -/
def hasStart : RevisionArg → Bool
  | .excluded _ => false
  | _ => true

/-- Starts from what is checked out. -/
def startFromHead (repository : Repository) : Step :=
  fun walk graph =>
    match RefFiles.readHead repository.dataPath repository.files with
    | .error failure => (.error failure, walk, graph)
    | .ok none => (.error (.fault (.unknownRevision "HEAD")), walk, graph)
    | .ok (some id) =>
      match Walk.markStart repository.source id walk graph with
      | (result, walk, graph) => (result.mapError .fault, walk, graph)

/-- Does what arguments ask for, one after another. Without any commit to start from the
log starts from what is checked out. -/
def markArguments (repository : Repository) : (started : Bool) → List String → Step
  | started, [], walk, graph =>
    if started then (.ok (), walk, graph) else startFromHead repository walk graph
  | started, text :: rest, walk, graph =>
    match RevisionArg.parse text with
    | .error failure => (.error failure, walk, graph)
    | .ok argument =>
      match markArgument repository argument walk graph with
      | (.error failure, walk, graph) => (.error failure, walk, graph)
      | (.ok (), walk, graph) =>
        markArguments repository (started || hasStart argument) rest walk graph

/-- What a log has printed, and how it ended. -/
structure Report where
  printed : List String := []
  failure : Option Failure := none

/-- The report of a failure before anything was printed. -/
def Report.failed (failure : Failure) : Report := ⟨[], some failure⟩

/-- A report with some text in front. -/
def Report.after (report : Report) (text : String) : Report :=
  { report with printed := text :: report.printed }

/-- All that was printed. -/
def Report.output (report : Report) : String := String.join report.printed

/-- Prints at most `most` further commits of a walk. -/
def printWithin (source : Source) (options : LogOptions) (coloured : Bool) : (most : Nat) →
    (first : Bool) → Walk → Graph → Report × Graph
  | most, first, walk, graph =>
    match walk.next source graph with
    | (.error fault, _, graph) => (.failed (.fault fault), graph)
    | (.ok none, _, graph) => ({}, graph)
    | (.ok (some node), walk, graph) =>
      match source.commit node.id with
      | .error fault => ((Report.failed (.fault fault)).after (separator options first), graph)
      | .ok commit =>
        let text := separator options first ++ entry options coloured node.id commit
        match most with
        | 0 => (Report.after {} text, graph)
        | most + 1 =>
          match printWithin source options coloured most false walk graph with
          | (report, graph) => (report.after text, graph)

/-- Prints the log of a repository. No commit is printed twice. -/
def run (repository : Repository) (options : LogOptions) (coloured : Bool) (graph : Graph) :
    Report × Graph :=
  match options.filter with
  | .error fault => (.failed (.fault fault), graph)
  | .ok filter =>
    match markArguments repository false options.revisions { filter, order := options.order }
        graph with
    | (.error failure, _, graph) => (.failed failure, graph)
    | (.ok (), walk, graph) =>
      printWithin repository.source options coloured ObjectId.total true walk graph

end Ancestry.Log
