import Ancestry.Proofs.Walk.Requests

/-!
# Passes by time

A pass is what repeated requests come to: the commits that they give, and the first
answer that is none or a fault. A walk by time that has not ended gives what it yields
and then its ending, after finitely many requests. From then on every request is answered
with none. So it is with any search that answers with what a walk yields.
-/

namespace Ancestry.Walk

variable {source : Source} {walk : Walk} {graph : Graph} {given : List Node}
  {ending : Option Fault} {roots hidden : List ObjectId}

/-- The answers to one request after another, up to the first that is none or a fault. -/
inductive Pass (source : Source) : Walk → Graph → List Node → Option Fault → Walk → Graph → Prop
    where
  | ended {walk after : Walk} {graph kept : Graph}
      (ran : next source walk graph = (.ok none, after, kept)) :
      Pass source walk graph [] none after kept
  | failed {walk after : Walk} {graph kept : Graph} {fault : Fault}
      (ran : next source walk graph = (.error fault, after, kept)) :
      Pass source walk graph [] (some fault) after kept
  | gave {walk between after : Walk} {graph kept last : Graph} {node : Node} {rest : List Node}
      {ending : Option Fault} (ran : next source walk graph = (.ok (some node), between, kept))
      (pass : Pass source between kept rest ending after last) :
      Pass source walk graph (node :: rest) ending after last

/-- What some kind of request comes to, up to the first answer that is none or a fault. -/
inductive PassBy (request : Action (Option Node)) :
    Walk → Graph → List Node → Option Fault → Walk → Graph → Prop where
  | ended {walk after : Walk} {graph kept : Graph}
      (ran : request walk graph = (.ok none, after, kept)) :
      PassBy request walk graph [] none after kept
  | failed {walk after : Walk} {graph kept : Graph} {fault : Fault}
      (ran : request walk graph = (.error fault, after, kept)) :
      PassBy request walk graph [] (some fault) after kept
  | gave {walk between after : Walk} {graph kept last : Graph} {node : Node} {rest : List Node}
      {ending : Option Fault} (ran : request walk graph = (.ok (some node), between, kept))
      (pass : PassBy request between kept rest ending after last) :
      PassBy request walk graph (node :: rest) ending after last

/-- A pass is what the requests of a walk come to. -/
theorem passBy_next {after : Walk} {kept : Graph} :
    PassBy (next source) walk graph given ending after kept ↔
      Pass source walk graph given ending after kept := by
  constructor
  · intro pass
    induction pass with
    | ended ran => exact .ended ran
    | failed ran => exact .failed ran
    | gave ran pass inductionHypothesis => exact .gave ran inductionHypothesis
  · intro pass
    induction pass with
    | ended ran => exact .ended ran
    | failed ran => exact .failed ran
    | gave ran pass inductionHypothesis => exact .gave ran inductionHypothesis

/-- What requests come to is determined. -/
theorem Pass.unique {after other : Walk} {kept last : Graph} {others : List Node}
    {ended : Option Fault} (first : Pass source walk graph given ending after kept)
    (second : Pass source walk graph others ended other last) :
    given = others ∧ ending = ended ∧ after = other ∧ kept = last := by
  induction first generalizing others with
  | ended ran | failed ran =>
    cases second <;> simp_all
  | gave ran pass inductionHypothesis =>
    cases second with
    | ended again | failed again => simp [ran] at again
    | gave again rest =>
      rw [ran] at again
      cases again
      obtain ⟨rfl, rfl, rfl, rfl⟩ := inductionHypothesis rest
      exact ⟨rfl, rfl, rfl, rfl⟩

/-- A walk by time whose pass has not ended. -/
structure Open (walk : Walk) : Prop where
  order : walk.order.needsAll = false
  phase : walk.phase ≠ .exhausted
  output : walk.output = none

/-- The walk in its pass. -/
def running (walk : Walk) : Walk := { walk with phase := .running }

/-- A walk is in one state before and after it starts running. -/
theorem running_state (walk : Walk) : SameState walk walk.running :=
  ⟨⟨rfl, fun _ => .rfl, fun _ => .rfl⟩, fun _ => .rfl, rfl⟩

/-- What a walk yields does not depend on whether the pass has started. -/
theorem Yields.running (yields : walk.Yields source given ending) :
    walk.running.Yields source given ending := by
  obtain ⟨shown, last, course, selects⟩ := yields
  exact ⟨shown, last, course.congr (running_state walk), selects⟩

/-- After the end of a pass there is nothing more. -/
theorem next_exhausted (phase : walk.phase = .exhausted) :
    next source walk graph = (.ok none, walk, graph) := by
  simp only [next, phase]

/-- The end of a search ends the pass. -/
def closing :
    Except Fault (Option Node) × Walk × Graph → Except Fault (Option Node) × Walk × Graph
  | (.error fault, after, kept) => (.error fault, after.abort, kept)
  | (.ok none, after, kept) => (.ok none, { after with phase := .exhausted }, kept)
  | (.ok (some node), after, kept) => (.ok (some node), after, kept)

section searches

variable {search : Action (Option Node)}

/-- The first request starts the pass, and every request continues it. -/
theorem requestBy_open (search : Action (Option Node)) (opened : walk.Open) :
    requestBy search walk graph = continuedBy search walk.running graph := by
  rw [requestBy]
  cases phase : walk.phase with
  | exhausted => exact absurd phase opened.phase
  | running =>
    have same : walk.running = walk := by rw [Walk.running, ← phase]
    rw [same]
  | configured => simp [Action.andThen, startBy, opened.order, Walk.running]

/-- Going on by time is the search, and the end of the pass where it finds none. -/
theorem continuedBy_eq (search : Action (Option Node)) (output : walk.output = none) :
    continuedBy search walk graph = closing (search walk graph) := by
  simp only [continuedBy, Action.andThen, guarded, proceedBy, output]
  rcases search walk graph with ⟨fault | _ | node, after, kept⟩ <;> rfl

/-- A request by time is answered with what the walk yields. -/
theorem Answering.request (answering : Answering source roots hidden search) (opened : walk.Open)
    (settled : walk.Settled source roots hidden) (faithful : graph.Faithful source)
    (yields : walk.Yields source given ending) :
    ∃ answer, requestBy search walk graph = closing answer ∧
      Answers source roots hidden walk.running given ending answer := by
  have output : walk.running.output = none := opened.output
  refine ⟨search walk.running graph, ?_, ?_⟩
  · rw [requestBy_open search opened, continuedBy_eq search output]
  · exact answering (settled.congr (running_state walk)) faithful yields.running

/-- A walk between requests goes on in the same pass. -/
theorem Open.of_pass {after : Walk} (opened : walk.Open) (pass : SamePass walk.running after) :
    after.Open :=
  ⟨pass.order ▸ opened.order, by simp [pass.phase, Walk.running], pass.output.trans opened.output⟩

/-- A walk by time gives what it yields and ends as it yields. The pass is over then, and its queue
is empty. -/
theorem Answering.exists_pass (answering : Answering source roots hidden search)
    (opened : walk.Open) (settled : walk.Settled source roots hidden)
    (faithful : graph.Faithful source) (yields : walk.Yields source given ending) :
    ∃ after kept, PassBy (requestBy search) walk graph given ending after kept ∧
      after.phase = .exhausted ∧ after.pending = [] := by
  induction given generalizing walk graph with
  | nil =>
    obtain ⟨answer, asked, serves, empties⟩ := answering.request opened settled faithful yields
    cases serves with
    | ended => exact ⟨_, _, .ended asked, rfl, empties rfl⟩
    | failed => exact ⟨_, _, .failed asked, rfl, rfl⟩
  | cons node rest inductionHypothesis =>
    obtain ⟨answer, asked, serves, _⟩ := answering.request opened settled faithful yields
    cases serves with
    | gave pass settled faithful yields =>
      obtain ⟨after, kept, goes, exhausted⟩ :=
        inductionHypothesis (opened.of_pass pass) settled faithful yields
      exact ⟨after, kept, .gave asked goes, exhausted⟩

end searches

/-- A request to an open walk goes on with its pass. -/
theorem next_open (opened : walk.Open) :
    next source walk graph = continued source walk.running graph := by
  rw [← requestBy_next, ← continuedBy_next]
  exact requestBy_open (nextByTime source) opened

/-- Going on by time is the search of the walk, and the end of the pass where it finds none. -/
theorem continued_eq (output : walk.output = none) :
    continued source walk graph = closing (nextByTime source walk graph) := by
  rw [← continuedBy_next]
  exact continuedBy_eq (nextByTime source) output

/-- A request serves what the walk yields. -/
theorem next_serves (opened : walk.Open) (settled : walk.Settled source roots hidden)
    (faithful : graph.Faithful source) (yields : walk.Yields source given ending) :
    ∃ answer, next source walk graph = closing answer ∧
      Serves source roots hidden walk.running given ending answer := by
  obtain ⟨answer, asked, answers⟩ := nextByTime_answering.request opened settled faithful yields
  rw [requestBy_next] at asked
  exact ⟨answer, asked, answers.serves⟩

/-- A walk is run through to the end of what it yields, by induction on it. -/
theorem exists_pass (opened : walk.Open) (settled : walk.Settled source roots hidden)
    (faithful : graph.Faithful source) (yields : walk.Yields source given ending) :
    ∃ after kept, Pass source walk graph given ending after kept ∧ after.phase = .exhausted := by
  obtain ⟨after, kept, passes, exhausted, _⟩ :=
    nextByTime_answering.exists_pass opened settled faithful yields
  rw [requestBy_next] at passes
  exact ⟨after, kept, passBy_next.mp passes, exhausted⟩

end Ancestry.Walk
