import Ancestry.Proofs.Log.Ranges

/-!
# Generations of revisions

A revision is a name with steps behind it, each of which goes back along first parents: a caret
by one generation, a tilde by as many as its number says. The steps follow one another, so that
only the number of all generations matters and not how it is spelled. A commit is looked up only
to learn its first parent. So the commit where a revision ends is not looked up, and a revision
that goes back by no generation is its name.
-/

namespace Ancestry

namespace Source

/-- So many steps back along first parents. Every commit but the last one has to resolve and to
have a parent. -/
inductive GoesBack (source : Source) :
    (generations : Nat) → (child ancestor : ObjectId) → Prop where
  | stays {id : ObjectId} : GoesBack source 0 id id
  | parent {generations : Nat} {child parent ancestor : ObjectId} {node : Node}
      (resolved : source.node child = .ok node) (first : node.parents.head? = some parent)
      (rest : GoesBack source generations parent ancestor) :
      GoesBack source (generations + 1) child ancestor

variable {source : Source} {first second : Nat} {child ancestor : ObjectId}

/-- No generation back is the commit itself. -/
theorem goesBack_zero_iff : source.GoesBack 0 child ancestor ↔ child = ancestor := by
  constructor
  · rintro ⟨⟩
    rfl
  · rintro rfl
    exact .stays

/-- Steps that follow one another add up. -/
theorem goesBack_add_iff : source.GoesBack (first + second) child ancestor ↔
    ∃ middle, source.GoesBack first child middle ∧ source.GoesBack second middle ancestor := by
  constructor
  · intro back
    induction first generalizing child with
    | zero =>
      rw [Nat.zero_add] at back
      exact ⟨child, .stays, back⟩
    | succ first inductionHypothesis =>
      rw [Nat.add_right_comm] at back
      cases back with
      | parent resolved named rest =>
        obtain ⟨middle, front, rest⟩ := inductionHypothesis rest
        exact ⟨middle, .parent resolved named front, rest⟩
  · rintro ⟨middle, front, rest⟩
    induction front with
    | stays => rwa [Nat.zero_add]
    | parent resolved named _ inductionHypothesis =>
      rw [Nat.add_right_comm]
      exact .parent resolved named (inductionHypothesis rest)

end Source

namespace Graph

section reading

variable {α β ε : Type} {source : Source} {kind other : α → Prop} {further : α → β → Prop}
  {reading first : Graph → Except ε α × Graph} {next : α → Graph → Except ε β × Graph}
  {both : Graph → Except ε β × Graph}

/-- A reading that succeeds with the values of a kind and with no others, whatever a faithful
graph has kept; the graph stays faithful. -/
def Finds (source : Source) (kind : α → Prop) (reading : Graph → Except ε α × Graph) : Prop :=
  ∀ graph, graph.Faithful source → ∃ result after, reading graph = (result, after) ∧
    after.Faithful source ∧ ∀ value, result = .ok value ↔ kind value

/-- What a reading finds depends on which values are meant, not on how that is said. -/
theorem Finds.congr (finds : Finds source kind reading) (same : ∀ value, kind value ↔ other value) :
    Finds source other reading := by
  intro graph faithful
  obtain ⟨result, after, read, kept, named⟩ := finds graph faithful
  exact ⟨result, after, read, kept, fun value => (named value).trans (same value)⟩

/-- One reading after another finds what the second finds from something that the first finds. -/
theorem Finds.andThen (finds : Finds source kind first)
    (rest : ∀ value, Finds source (further value) (next value))
    (fails : ∀ graph failure after, first graph = (.error failure, after) →
      both graph = (.error failure, after))
    (goes : ∀ graph value after, first graph = (.ok value, after) → both graph = next value after) :
    Finds source (fun last => ∃ value, kind value ∧ further value last) both := by
  intro graph faithful
  obtain ⟨result, between, read, kept, named⟩ := finds graph faithful
  cases result with
  | error failure =>
    refine ⟨.error failure, between, fails graph failure between read, kept, fun last => ?_⟩
    constructor
    · intro impossible
      cases impossible
    · rintro ⟨value, holds, _⟩
      cases (named value).mpr holds
  | ok value =>
    obtain ⟨result, after, finished, kept, leads⟩ := rest value between kept
    refine ⟨result, after, (goes graph value between read).trans finished, kept, fun last => ?_⟩
    rw [leads]
    constructor
    · intro holds
      exact ⟨value, (named value).mp rfl, holds⟩
    · rintro ⟨same, holds, led⟩
      obtain rfl := Except.ok.inj ((named same).mpr holds)
      exact led

end reading

end Graph

namespace Revision

/-- The name that the steps of a revision stand behind. -/
def branch : Revision → BranchName
  | .name branch => branch
  | .parent base => base.branch
  | .ancestor base _ => base.branch

/-- By how many generations a revision goes back. -/
def generations : Revision → Nat
  | .name _ => 0
  | .parent base => base.generations + 1
  | .ancestor base generations => base.generations + generations

end Revision

namespace Repository

open Ancestry.Graph

variable {repository : Repository} {source : Source}

/-- A commit has at most one first parent, which is found if there is one. -/
theorem firstParent_finds (source : Source) (sought : Revision) (id : ObjectId) :
    Finds source (source.GoesBack 1 id) (firstParent source sought id) := by
  intro graph faithful
  obtain ⟨after, answered, kept⟩ := faithful.resolve id
  cases resolved : source.node id with
  | error fault =>
    refine ⟨.error (.fault fault), after, by simp only [firstParent, answered, resolved], kept, ?_⟩
    intro parent
    constructor
    · intro impossible
      cases impossible
    · rintro (_ | ⟨found, _, _⟩)
      rw [resolved] at found
      cases found
  | ok node =>
    cases parents : node.parents with
    | nil =>
      refine ⟨.error (.fault (.unknownRevision sought.display)), after,
        by simp only [firstParent, answered, resolved, parents], kept, ?_⟩
      intro parent
      constructor
      · intro impossible
        cases impossible
      · rintro (_ | ⟨found, first, _⟩)
        obtain rfl := Except.ok.inj (resolved.symm.trans found)
        rw [parents] at first
        cases first
    | cons first others =>
      refine ⟨.ok first, after, by simp only [firstParent, answered, resolved, parents], kept, ?_⟩
      intro parent
      constructor
      · rintro ⟨⟩
        exact .parent resolved (by rw [parents]; rfl) .stays
      · rintro (_ | ⟨found, named, ⟨⟩⟩)
        obtain rfl := Except.ok.inj (resolved.symm.trans found)
        rw [parents] at named
        exact congrArg Except.ok (Option.some.inj named)

/-- So is the first parent of the first parent, and so on. -/
theorem generationsBack_finds (source : Source) (sought : Revision) (generations : Nat)
    (id : ObjectId) :
    Finds source (source.GoesBack generations id)
      (generationsBack source sought generations id) := by
  induction generations generalizing id with
  | zero =>
    intro graph faithful
    refine ⟨.ok id, graph, rfl, faithful, fun last => ?_⟩
    rw [Source.goesBack_zero_iff, Except.ok.injEq]
  | succ generations inductionHypothesis =>
    have split (last : ObjectId) : (∃ parent, source.GoesBack 1 id parent ∧
        source.GoesBack generations parent last) ↔ source.GoesBack (generations + 1) id last := by
      rw [Nat.add_comm, Source.goesBack_add_iff]
    have first := firstParent_finds source sought id
    refine Finds.congr (first.andThen inductionHypothesis ?_ ?_) split
    · intro graph failure after ran
      rw [generationsBack, ran]
    · intro graph parent after ran
      rw [generationsBack, ran]

/-- Going back from what a revision finds goes back further from its name. -/
theorem goesBack_further (revision : Revision) (more : Nat) (last : ObjectId) :
    (∃ id, (∃ start, repository.resolveName revision.branch = .ok start ∧
        source.GoesBack revision.generations start id) ∧ source.GoesBack more id last) ↔
      ∃ start, repository.resolveName revision.branch = .ok start ∧
        source.GoesBack (revision.generations + more) start last := by
  simp only [Source.goesBack_add_iff]
  constructor
  · rintro ⟨id, ⟨start, named, front⟩, rest⟩
    exact ⟨start, named, id, front, rest⟩
  · rintro ⟨start, named, id, front, rest⟩
    exact ⟨id, ⟨start, named, front⟩, rest⟩

/-- A revision finds the commit so many generations before the one that its name means. -/
theorem resolve_finds (repository : Repository) (revision : Revision) :
    Finds repository.source
      (fun id => ∃ start, repository.resolveName revision.branch = .ok start ∧
        repository.source.GoesBack revision.generations start id)
      (repository.resolve revision) := by
  induction revision with
  | name branch =>
    intro graph faithful
    refine ⟨repository.resolveName branch, graph, rfl, faithful, fun id => ?_⟩
    constructor
    · intro named
      exact ⟨id, named, .stays⟩
    · rintro ⟨start, named, back⟩
      obtain rfl := Source.goesBack_zero_iff.mp back
      exact named
  | parent base inductionHypothesis =>
    have next := firstParent_finds repository.source (.parent base)
    refine Finds.congr (inductionHypothesis.andThen next ?_ ?_) (goesBack_further base 1)
    · intro graph failure after ran
      rw [resolve, ran]
    · intro graph id after ran
      rw [resolve, ran]
  | ancestor base generations inductionHypothesis =>
    have next := generationsBack_finds repository.source (.ancestor base generations) generations
    refine Finds.congr (inductionHypothesis.andThen next ?_ ?_) (goesBack_further base generations)
    · intro graph failure after ran
      rw [resolve, ran]
    · intro graph id after ran
      rw [resolve, ran]

/-- Without a generation to go back by, the graph is neither asked nor changed. -/
theorem resolve_stays (revision : Revision) (stays : revision.generations = 0) (graph : Graph) :
    repository.resolve revision graph = (repository.resolveName revision.branch, graph) := by
  induction revision with
  | name branch => rfl
  | parent base _ => cases stays
  | ancestor base generations inductionHypothesis =>
    obtain ⟨none, rfl⟩ := Nat.add_eq_zero_iff.mp stays
    rw [resolve, inductionHypothesis none]
    cases named : repository.resolveName base.branch with
    | error failure => simp only [Revision.branch, named]
    | ok id => simp only [Revision.branch, named, generationsBack]

/-- A revision means the commit so many generations before the one that its name means, and
nothing where there is no such commit. No commit is looked up where it goes back by none, and
revisions with the same name and as many generations mean the same or nothing.

Proof: by induction on the revision: each step reads one node for each generation, and going back by
two numbers is going back by their sum. -/
theorem resolve_generations (repository : Repository) (revision : Revision) {graph : Graph}
    (faithful : graph.Faithful repository.source) :
    (∀ id, (repository.resolve revision graph).1 = .ok id ↔
      ∃ start, repository.resolveName revision.branch = .ok start ∧
        repository.source.GoesBack revision.generations start id) ∧
    (revision.generations = 0 → ∀ known,
      repository.resolve revision known = (repository.resolveName revision.branch, known)) ∧
    ∀ other known, known.Faithful repository.source → other.branch = revision.branch →
      other.generations = revision.generations →
      (repository.resolve other known).1.toOption =
        (repository.resolve revision graph).1.toOption := by
  have finds (revision : Revision) {graph : Graph} (faithful : graph.Faithful repository.source)
      (id : ObjectId) : (repository.resolve revision graph).1 = .ok id ↔
        ∃ start, repository.resolveName revision.branch = .ok start ∧
          repository.source.GoesBack revision.generations start id := by
    obtain ⟨result, after, read, _, named⟩ := resolve_finds repository revision graph faithful
    rw [read]
    exact named id
  refine ⟨finds revision faithful, resolve_stays revision, ?_⟩
  intro other known still named counted
  have alike (id : ObjectId) : (repository.resolve other known).1 = .ok id ↔
      (repository.resolve revision graph).1 = .ok id := by
    rw [finds other still, finds revision faithful, named, counted]
  cases found : (repository.resolve other known).1 with
  | ok id => rw [(alike id).mp found]
  | error failure =>
    cases meant : (repository.resolve revision graph).1 with
    | ok id => cases found.symm.trans ((alike id).mpr meant)
    | error _ => rfl

/-- Two carets behind a name, and a tilde with the same number and another without effect. -/
theorem resolve_generations_late :
    (Log.late.resolve (.parent (.parent (.name Log.hiddenName))) {}).1 = .ok (.uniform 1) ∧
      (Log.late.resolve (.ancestor (.ancestor (.name Log.hiddenName) 0) 2) {}).1.toOption =
        some (.uniform 1) := by
  have named : Log.late.resolveName Log.hiddenName = .ok (.uniform 3) := Log.hiddenName_means
  have empty := faithful_empty Log.late.source
  obtain ⟨found, _, alike⟩ :=
    resolve_generations Log.late (.parent (.parent (.name Log.hiddenName))) empty
  have carets := (found (.uniform 1)).mpr
    ⟨.uniform 3, named, .parent Log.late_hidden rfl (.parent Log.late_middle rfl .stays)⟩
  constructor
  · exact carets
  · rw [alike (.ancestor (.ancestor (.name Log.hiddenName) 0) 2) {} empty rfl rfl, carets]
    rfl

end Repository

end Ancestry
