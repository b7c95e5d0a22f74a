import Ancestry.Proofs.Walk.Course
import Ancestry.Proofs.Walk.Sequencing

/-!
# Requests of a walk by time

A walk by time yields what its filter selects from the course of its traversal. A request
gives the first commit of that and leaves a walk that yields the rest; where nothing is
left it gives the ending, and the pass is over. This is all that the outer operations
need to know about a traversal, and it holds of every kind of visit that follows the course.
-/

namespace Ancestry.Walk

variable {source : Source} {walk : Walk} {graph : Graph} {node : Node}
  {shown given : List Node} {ending : Option Fault} {roots hidden : List ObjectId}

/-- The commits and the ending that are left for a walk to give. -/
def Yields (source : Source) (walk : Walk) (given : List Node) (ending : Option Fault) : Prop :=
  ∃ shown last, Course source walk shown last ∧
    walk.filter.select source last shown = (given, ending)

/-- A walk that goes on with the rest of a course after a visit. -/
structure Follows (source : Source) (roots hidden : List ObjectId) (walk : Walk)
    (shown : List Node) (ending : Option Fault) (after : Walk) : Prop where
  settled : after.Settled source roots hidden
  fewer : ObjectId.unmarked after.Visited < ObjectId.unmarked walk.Visited
  course : Course source after shown ending

/-- What a visit makes of the course: nothing is left of it, or the commit is skipped, or
the commit is the first of it and the filter decides. -/
inductive Takes (source : Source) (roots hidden : List ObjectId) (walk : Walk) (node : Node) :
    List Node → Option Fault → Except Fault Verdict → Walk → Prop where
  | stuck {fault : Fault} {after : Walk} :
      Takes source roots hidden walk node [] (some fault) (.error fault) after
  | finished {after : Walk} : Takes source roots hidden walk node [] none (.ok .finish) after
  | skipped {shown : List Node} {ending : Option Fault} {after : Walk}
      (filter : after.filter = walk.filter)
      (follows : Follows source roots hidden walk shown ending after) :
      Takes source roots hidden walk node shown ending (.ok .pass) after
  | judged {rest : List Node} {ending : Option Fault} {result : Except Fault Outcome} {after : Walk}
      (answered : walk.filter.answer source node = (result, after.filter))
      (goes : result ≠ .ok .stop → Follows source roots hidden walk rest ending after) :
      Takes source roots hidden walk node (node :: rest) ending
        (result.map Verdict.ofOutcome) after

/-- An answer is a stop only if the filter says so. -/
theorem Verdict.finish_iff (result : Except Fault Outcome) :
    result.map Verdict.ofOutcome = .ok .finish ↔ result = .ok .stop := by
  rcases result with fault | outcome
  · simp [Except.map]
  · cases outcome <;> simp [Except.map, ofOutcome]

/-- The same commits stay to be visited in a walk in the same state. -/
theorem Follows.congr {after other : Walk}
    (follows : Follows source roots hidden walk shown ending after)
    (same : SameState after other) : Follows source roots hidden walk shown ending other := by
  refine ⟨follows.settled.congr same, ?_, follows.course.congr same⟩
  have grown : ∀ id, after.Visited id → other.Visited id := fun id => (same.visited id).mp
  exact (ObjectId.unmarked_mono _ _ grown).trans_lt follows.fewer

/-- The filter's decision after all parents were met. -/
theorem Decides.takes {met after : Walk} {result : Except Fault Verdict} {rest : List Node}
    (decides : Decides source node met result after) (filter : met.filter = walk.filter)
    (follows : Follows source roots hidden walk rest ending met) :
    Takes source roots hidden walk node (node :: rest) ending result after := by
  rw [decides.decided]
  refine .judged (by rw [← filter, decides.filter]) fun going => ?_
  refine follows.congr (decides.state fun finished => going ?_)
  rwa [decides.decided, Verdict.finish_iff] at finished

/-- Every visit follows the course. -/
theorem visit_takes {rest : List Node} (settled : walk.Settled source roots hidden)
    (faithful : graph.Faithful source) (first : walk.pending = node :: rest)
    (course : Course source walk shown ending) :
    ∃ result after kept, visit source node walk graph = (result, after, kept) ∧
      kept.Faithful source ∧ SamePass walk after ∧
      Takes source roots hidden walk node shown ending result after := by
  obtain ⟨result, after, kept, ran, faithful, stuck | ⟨met, unchanged, advances, proceeds⟩⟩ :=
    visit_cases settled.consistent faithful first
  · obtain ⟨fault, rfl, unchanged, unresolved⟩ := stuck
    obtain ⟨rfl, rfl⟩ := course.of_stuck first unresolved
    exact ⟨.error fault, after, kept, ran, faithful, unchanged.toSamePass, .stuck⟩
  · have between := advances.settled settled
    have fewer := advances.fewer (settled.consistent.waiting first).2
    refine ⟨result, after, kept, ran, faithful, ?_, ?_⟩
    · cases proceeds with
      | ended | skipped => exact ⟨unchanged.order, unchanged.phase, unchanged.output⟩
      | judged visible result after decides => exact unchanged.toSamePass.trans decides.pass
    · rcases course.after settled first advances with
        ⟨veiled, all, rfl, rfl⟩ | ⟨veiled, left, onward⟩ | ⟨visible, later, rfl, onward⟩
      · cases proceeds with
        | ended => exact .finished
        | skipped _ left => exact absurd all left
        | judged visible => exact absurd veiled visible
      · cases proceeds with
        | ended _ all => exact absurd all left
        | skipped => exact .skipped unchanged.filter ⟨between, fewer, onward⟩
        | judged visible => exact absurd veiled visible
      · cases proceeds with
        | ended veiled | skipped veiled => exact absurd veiled visible
        | judged _ result after decides =>
          exact decides.takes unchanged.filter ⟨between, fewer, onward⟩

/-- Answers to a request: the ending where nothing is left, and else the first commit. -/
inductive Serves (source : Source) (roots hidden : List ObjectId) (walk : Walk) :
    List Node → Option Fault → Except Fault (Option Node) × Walk × Graph → Prop where
  | ended {after : Walk} {kept : Graph} (pass : SamePass walk after) :
      Serves source roots hidden walk [] none (.ok none, after, kept)
  | failed {after : Walk} {kept : Graph} {fault : Fault} (pass : SamePass walk after) :
      Serves source roots hidden walk [] (some fault) (.error fault, after, kept)
  | gave {after : Walk} {kept : Graph} {node : Node} {rest : List Node} {ending : Option Fault}
      (pass : SamePass walk after) (settled : after.Settled source roots hidden)
      (faithful : kept.Faithful source) (yields : after.Yields source rest ending) :
      Serves source roots hidden walk (node :: rest) ending (.ok (some node), after, kept)

/-- Answers of a walk in the same pass. -/
theorem Serves.of_pass {other : Walk} {result : Except Fault (Option Node) × Walk × Graph}
    (same : SamePass other walk) (serves : Serves source roots hidden walk given ending result) :
    Serves source roots hidden other given ending result := by
  cases serves with
  | ended pass => exact .ended (same.trans pass)
  | failed pass => exact .failed (same.trans pass)
  | gave pass settled faithful yields => exact .gave (same.trans pass) settled faithful yields

/-- Answers to a request that leave an empty queue where they are none. -/
structure Answers (source : Source) (roots hidden : List ObjectId) (walk : Walk)
    (given : List Node) (ending : Option Fault)
    (answer : Except Fault (Option Node) × Walk × Graph) : Prop where
  serves : Serves source roots hidden walk given ending answer
  empties : answer.1 = .ok none → answer.2.1.pending = []

/-- A fault answers a walk with nothing left but that fault. -/
theorem Answers.failed {after : Walk} {kept : Graph} {fault : Fault} (pass : SamePass walk after) :
    Answers source roots hidden walk [] (some fault) (.error fault, after, kept) where
  serves := .failed pass
  empties impossible := by cases impossible

/-- A commit answers a walk that yields it first, if what is left yields the rest. -/
theorem Answers.gave {after : Walk} {kept : Graph} {rest : List Node} (pass : SamePass walk after)
    (settled : after.Settled source roots hidden) (faithful : kept.Faithful source)
    (yields : after.Yields source rest ending) :
    Answers source roots hidden walk (node :: rest) ending (.ok (some node), after, kept) where
  serves := .gave pass settled faithful yields
  empties impossible := by cases impossible

/-- Answers of a walk in the same pass that is asked instead. -/
theorem Answers.of_pass {other : Walk} {answer : Except Fault (Option Node) × Walk × Graph}
    (same : SamePass other walk) (answers : Answers source roots hidden walk given ending answer) :
    Answers source roots hidden other given ending answer :=
  ⟨.of_pass same answers.serves, answers.empties⟩

/-- A kind of visit that follows the course, and that empties the queue where it ends the pass. -/
structure Traverses (source : Source) (roots hidden : List ObjectId)
    (visit : Node → Action Verdict) : Prop where
  takes {walk : Walk} {graph : Graph} {node : Node} {rest shown : List Node}
    {ending : Option Fault} (settled : walk.Settled source roots hidden)
    (faithful : graph.Faithful source) (first : walk.pending = node :: rest)
    (course : Course source walk shown ending) :
    ∃ result after kept, visit node walk graph = (result, after, kept) ∧
      kept.Faithful source ∧ SamePass walk after ∧
      Takes source roots hidden walk node shown ending result after
  clears {walk after : Walk} {graph kept : Graph} {node : Node}
    (finished : visit node walk graph = (.ok .finish, after, kept)) : after.pending = []

/-- A search that answers with what a walk yields. -/
def Answering (source : Source) (roots hidden : List ObjectId)
    (search : Action (Option Node)) : Prop :=
  ∀ ⦃walk : Walk⦄ ⦃graph : Graph⦄ ⦃given : List Node⦄ ⦃ending : Option Fault⦄,
    walk.Settled source roots hidden → graph.Faithful source → walk.Yields source given ending →
    Answers source roots hidden walk given ending (search walk graph)

/-- The filter ends a pass with an empty queue. -/
theorem decideOn_clears {after : Walk} {kept : Graph}
    (finished : decideOn source node walk graph = (.ok .finish, after, kept)) :
    after.pending = [] := by
  rw [decideOn_eq] at finished
  obtain ⟨outcome, between, store, _, concluded⟩ := Action.of_andThen finished
  cases outcome with
  | stop =>
    cases concluded
    rfl
  | «include» | exclude => cases concluded

/-- The visits of the walk follow the course. -/
theorem visit_traverses : Traverses source roots hidden (visit source) where
  takes := visit_takes
  clears {walk after graph kept node} finished := by
    rw [visit_eq] at finished
    obtain ⟨hidden, between, store, _, settled⟩ := Action.of_andThen finished
    cases hidden with
    | false => exact decideOn_clears settled
    | true =>
      simp only [settle, if_true] at settled
      split at settled <;> cases settled
      rfl

/-- With nothing in the queue there is nothing to give. -/
theorem answers_idle (empty : walk.pending = []) (yields : walk.Yields source given ending) :
    Answers source roots hidden walk given ending (.ok none, walk, graph) := by
  obtain ⟨shown, last, course, selects⟩ := yields
  cases course with
  | idle =>
    rw [Filter.select] at selects
    cases selects
    exact ⟨.ended (.refl walk), fun _ => empty⟩
  | stuck first | early first | skipped first | shown first => simp [empty] at first

/-- A search answers with what the walk yields, if it does so after its first visit. -/
theorem Traverses.answers_first {visit : Node → Action Verdict} {rest : Action (Option Node)}
    (traverses : Traverses source roots hidden visit) (settled : walk.Settled source roots hidden)
    (faithful : graph.Faithful source) (yields : walk.Yields source given ending)
    (goes : ∀ {after kept}, after.Settled source roots hidden → kept.Faithful source →
      ObjectId.unmarked after.Visited < ObjectId.unmarked walk.Visited →
      after.Yields source given ending →
      Answers source roots hidden after given ending (rest after kept)) :
    Answers source roots hidden walk given ending (searchFirst visit rest walk graph) := by
  cases first : walk.pending with
  | nil =>
    rw [searchFirst_nil visit rest graph first]
    exact answers_idle first yields
  | cons node later =>
    obtain ⟨shown, last, course, selects⟩ := yields
    obtain ⟨result, after, kept, ran, faithful, pass, takes⟩ :=
      traverses.takes settled faithful first course
    rw [searchFirst_cons visit rest graph first, Action.andThen, ran]
    cases takes with
    | stuck =>
      cases selects
      exact .failed pass
    | finished =>
      cases selects
      exact ⟨.ended pass, fun _ => traverses.clears ran⟩
    | skipped filter follows =>
      exact .of_pass pass (goes follows.settled faithful follows.fewer
        ⟨shown, last, follows.course, filter ▸ selects⟩)
    | @judged others _ result _ answered follows =>
      rw [Filter.select, answered] at selects
      cases result with
      | error fault =>
        cases selects
        exact .failed pass
      | ok outcome =>
        cases outcome with
        | stop =>
          cases selects
          exact ⟨.ended pass, fun _ => traverses.clears ran⟩
        | «include» =>
          have follows := follows (by simp)
          cases selects
          exact .gave pass follows.settled faithful ⟨others, last, follows.course, rfl⟩
        | exclude =>
          have follows := follows (by simp)
          exact .of_pass pass (goes follows.settled faithful follows.fewer
            ⟨others, last, follows.course, selects⟩)

/-- A search answers with what the walk yields. The induction is on the bound of the
search, which suffices as every visit marks another identifier. -/
theorem Traverses.answers {visit : Node → Action Verdict}
    (traverses : Traverses source roots hidden visit) (most : Nat)
    (settled : walk.Settled source roots hidden) (faithful : graph.Faithful source)
    (enough : ObjectId.unmarked walk.Visited ≤ most) (yields : walk.Yields source given ending) :
    Answers source roots hidden walk given ending (searchBy visit most walk graph) := by
  induction most generalizing walk graph given with
  | zero =>
    refine traverses.answers_first settled faithful yields ?_
    intro after kept _ _ fewer
    omega
  | succ most inductionHypothesis =>
    refine traverses.answers_first settled faithful yields ?_
    intro after kept settled faithful fewer yields
    exact inductionHypothesis settled faithful (by omega) yields

/-- A search by visits that follow the course answers with what the walk yields. -/
theorem Traverses.answering {visit : Node → Action Verdict}
    (traverses : Traverses source roots hidden visit) :
    Answering source roots hidden (searchBy visit ObjectId.total) :=
  fun walk _ _ _ settled faithful =>
    traverses.answers ObjectId.total settled faithful (ObjectId.unmarked_le_total walk.Visited)

/-- The next commit by time is what the walk yields first. -/
theorem nextByTime_answering : Answering source roots hidden (nextByTime source) := by
  rw [nextByTime, ← searchBy_visit]
  exact visit_traverses.answering

end Ancestry.Walk
