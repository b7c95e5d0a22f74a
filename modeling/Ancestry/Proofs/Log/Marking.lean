import Ancestry.Log.Basic
import Ancestry.Proofs.Repository.Meaning
import Ancestry.Proofs.Walk.Marking

/-!
# What the arguments of a log mark

Each step of a log names a commit and marks it, or fails. What it marks and how it comes out
depends on the repository alone: not on what was marked before, not on the settings of the walk,
and not on what has been read. So it is with any number of steps in sequence.
-/

namespace Ancestry

namespace Log

open Walk (Tells)

variable {repository : Repository} {outcome : Except Failure Unit} {marks others : List Mark}

/-- A step has one outcome and tells any walk the same, through any faithful graph. -/
def Determines (repository : Repository) (step : Step) (outcome : Except Failure Unit)
    (marks : List Mark) : Prop :=
  ∀ (walk : Walk) (graph : Graph) (roots hidden : List ObjectId),
    walk.Marked repository.source roots hidden → graph.Faithful repository.source →
      ∃ after kept, step walk graph = (outcome, after, kept) ∧
        kept.Faithful repository.source ∧ Tells repository.source marks walk after

/-- A step that does nothing but end in some way. -/
theorem determines_still (outcome : Except Failure Unit) :
    Determines repository (fun walk graph => (outcome, walk, graph)) outcome [] :=
  fun walk graph _ _ _ faithful => ⟨walk, graph, rfl, faithful, .nothing walk⟩

section sequences

variable {first second whole : Step}

/-- A step that fails where its first part fails. -/
theorem Determines.fails {failure : Failure}
    (one : Determines repository first (.error failure) marks)
    (same : ∀ walk graph between kept, first walk graph = (.error failure, between, kept) →
      whole walk graph = (.error failure, between, kept)) :
    Determines repository whole (.error failure) marks := by
  intro walk graph roots hidden marked faithful
  obtain ⟨after, kept, ran, faithful, tells⟩ := one walk graph roots hidden marked faithful
  exact ⟨after, kept, same walk graph after kept ran, faithful, tells⟩

/-- A step that goes on where its first part succeeds. -/
theorem Determines.andThen (one : Determines repository first (.ok ()) marks)
    (two : Determines repository second outcome others)
    (same : ∀ walk graph between kept, first walk graph = (.ok (), between, kept) →
      whole walk graph = second between kept) :
    Determines repository whole outcome (marks ++ others) := by
  intro walk graph roots hidden marked faithful
  obtain ⟨between, kept, ran, faithful, tells⟩ := one walk graph roots hidden marked faithful
  obtain ⟨after, left, finished, faithful, more⟩ :=
    two between kept _ _ (tells.marked marked) faithful
  exact ⟨after, left, (same walk graph between kept ran).trans finished, faithful,
    tells.append more⟩

/-- A step has an outcome and some marks. -/
def Determined (repository : Repository) (step : Step) : Prop :=
  ∃ outcome marks, Determines repository step outcome marks

/-- A step after another, unless that fails. -/
theorem Determined.andThen (one : Determined repository first) (two : Determined repository second)
    (fails : ∀ failure walk graph between kept, first walk graph = (.error failure, between, kept) →
      whole walk graph = (.error failure, between, kept))
    (goes : ∀ walk graph between kept, first walk graph = (.ok (), between, kept) →
      whole walk graph = second between kept) : Determined repository whole := by
  obtain ⟨outcome, marks, one⟩ := one
  cases outcome with
  | error failure => exact ⟨.error failure, marks, one.fails (fails failure)⟩
  | ok done =>
    obtain ⟨last, others, two⟩ := two
    exact ⟨last, marks ++ others, one.andThen two goes⟩

end sequences

/-- Marking the commit of a revision. -/
theorem withRevision_determines {revision : Revision} {id : ObjectId} (mark : ObjectId → Mark)
    (means : repository.meaning revision = .ok id) :
    Determines repository
      (withRevision repository revision fun id => (mark id).action repository.source)
      (((repository.source.node (mark id).id).map fun _ => ()).mapError .fault) [mark id] := by
  intro walk graph roots hidden marked faithful
  obtain ⟨between, named, faithful⟩ := repository.resolve_meaning revision faithful
  obtain ⟨after, kept, ran, faithful, told⟩ := Walk.action_told (mark id) marked faithful
  rw [means] at named
  exact ⟨after, kept, by simp only [withRevision, named, ran], faithful,
    .more told (.nothing after)⟩

/-- It succeeds where the commit resolves. -/
theorem withRevision_succeeds {revision : Revision} {id : ObjectId} (mark : ObjectId → Mark)
    (means : repository.meaning revision = .ok id)
    (resolves : repository.source.Resolves (mark id).id) :
    Determines repository
      (withRevision repository revision fun id => (mark id).action repository.source) (.ok ())
      [mark id] := by
  have whole := withRevision_determines mark means
  obtain ⟨node, resolved⟩ := resolves
  rw [resolved] at whole
  exact whole

/-- A step on what a revision means has one outcome, whatever the graph has read. -/
theorem withRevision_determined (repository : Repository) (revision : Revision)
    (mark : ObjectId → Mark) :
    Determined repository
      (withRevision repository revision fun id => (mark id).action repository.source) := by
  cases means : repository.meaning revision with
  | error failure =>
    refine ⟨.error failure, [], fun walk graph _ _ _ faithful => ?_⟩
    obtain ⟨kept, named, faithful⟩ := repository.resolve_meaning revision faithful
    rw [means] at named
    exact ⟨walk, kept, by simp only [withRevision, named], faithful, .nothing walk⟩
  | ok id => exact ⟨_, [mark id], withRevision_determines mark means⟩

/-- The older side of a range is hidden before the newer one is started from. -/
theorem markArgument_determined (repository : Repository) (argument : RevisionArg) :
    Determined repository (markArgument repository argument) := by
  cases argument with
  | included revision => exact withRevision_determined repository revision .start
  | excluded revision => exact withRevision_determined repository revision .hide
  | range older newer =>
    have one : Determined repository (hideFrom repository older) :=
      withRevision_determined repository older .hide
    have two : Determined repository (startFrom repository newer) :=
      withRevision_determined repository newer .start
    refine one.andThen two ?_ ?_
    · intro failure walk graph between kept ran
      simp only [markArgument, ran]
    · intro walk graph between kept ran
      simp only [markArgument, ran]

/-- Starting from HEAD has one outcome. -/
theorem startFromHead_determined (repository : Repository) :
    Determined repository (startFromHead repository) := by
  cases head : RefFiles.readHead repository.dataPath repository.files with
  | error failure =>
    refine ⟨.error failure, [], fun walk graph _ _ _ faithful => ?_⟩
    exact ⟨walk, graph, by simp only [startFromHead, head], faithful, .nothing walk⟩
  | ok found =>
    cases found with
    | none =>
      refine ⟨.error (.fault (.unknownRevision "HEAD")), [], fun walk graph _ _ _ faithful => ?_⟩
      exact ⟨walk, graph, by simp only [startFromHead, head], faithful, .nothing walk⟩
    | some id =>
      refine ⟨((repository.source.node id).map fun _ => ()).mapError .fault, [.start id],
        fun walk graph roots hidden marked faithful => ?_⟩
      obtain ⟨after, kept, ran, faithful, told⟩ := Walk.markStart_told id marked faithful
      exact ⟨after, kept, by simp only [startFromHead, head, ran], faithful,
        .more told (.nothing after)⟩

/-- So do all arguments together. -/
theorem markArguments_determined (repository : Repository) (started : Bool) (texts : List String) :
    Determined repository (markArguments repository started texts) := by
  induction texts generalizing started with
  | nil =>
    cases started with
    | true => exact ⟨_, _, determines_still (.ok ())⟩
    | false => exact startFromHead_determined repository
  | cons text rest inductionHypothesis =>
    cases parsed : RevisionArg.parse text with
    | error failure =>
      have same : markArguments repository started (text :: rest) =
          fun walk graph => (.error failure, walk, graph) := by
        funext walk graph
        simp only [markArguments, parsed]
      rw [same]
      exact ⟨_, _, determines_still (.error failure)⟩
    | ok argument =>
      refine (markArgument_determined repository argument).andThen
        (inductionHypothesis (started || hasStart argument)) ?_ ?_
      · intro failure walk graph between kept ran
        simp only [markArguments, parsed, ran]
      · intro walk graph between kept ran
        simp only [markArguments, parsed, ran]

end Log

end Ancestry
