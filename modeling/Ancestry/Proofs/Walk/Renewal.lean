import Ancestry.Proofs.Walk.Coverage
import Ancestry.Proofs.Walk.Steadiness

/-!
# Walks that are reset

Whatever has been done with a walk, a reset makes it a new walk of the same order and with
the filter as it was at first. That is to say that nothing of what is kept for a pass
outlasts it: no mark, no queued commit, no kept output, and no counter of a filter in any
depth. The order and the filter are those that were chosen last, in whichever pass.
-/

namespace Ancestry.Walk

variable {source : Source} {events : List Event} {walk : Walk}

/-- What makes a new walk into one that was reset. -/
def renewal (walk : Walk) : List Operation :=
  [.set (.order walk.order), .set (.filter walk.filter.fresh)]

/-- A walk that was reset. Its marks, its queue and its output are those of a new walk. -/
theorem reset_eq (walk : Walk) :
    walk.reset = { filter := walk.filter.fresh, order := walk.order } := rfl

/-- The settings are done to a new walk, and nothing is read for them. -/
theorem renewal_renews (source : Source) (walk : Walk) (later : List Operation) (graph : Graph) :
    session source (walk.renewal ++ later) {} graph =
      (.done :: .done :: (session source later walk.reset graph).1,
        (session source later walk.reset graph).2) := by
  have ordered : perform source (.set (.order walk.order)) {} graph =
      (.done, { order := walk.order }, graph) := rfl
  have filtered : perform source (.set (.filter walk.filter.fresh)) { order := walk.order } graph =
      (.done, { filter := walk.filter.fresh, order := walk.order }, graph) := rfl
  simp only [renewal, List.cons_append, List.nil_append, session, ordered, filtered, reset_eq]

/-- A reset renews a walk. Whatever has happened to it, from then on every session has the
replies and leaves the walk that it has and leaves with a new walk for which the same order and
the same filter were chosen, over the same graph or over any other that is faithful. Order and
filter are the last ones that were chosen before the reset.

Proof: a reset leaves what the two settings make of a new walk, and from one walk every session is
the same over all faithful graphs. -/
theorem reset_renews (history : History source events walk) :
    walk.order = Setting.orderOf (Event.chosen events) ∧
    walk.filter.fresh = (Setting.filterOf (Event.chosen events)).fresh ∧
    ∀ later, ∃ replies last, ∀ graph store, graph.Faithful source → store.Faithful source →
      ∃ kept rest, session source (.reset :: later) walk graph = (.done :: replies, last, kept) ∧
        session source (walk.renewal ++ later) {} store = (.done :: .done :: replies, last, rest) ∧
        (graph = store → kept = rest) := by
  refine ⟨history.chooses.order, history.chooses.fresh, fun later => ?_⟩
  obtain ⟨replies, last, settled⟩ := session_replies source later walk.reset
  refine ⟨replies, last, fun graph store faithful other => ?_⟩
  obtain ⟨kept, ran, _⟩ := settled graph faithful
  obtain ⟨rest, again, _⟩ := settled store other
  refine ⟨kept, rest, ?_, ?_, ?_⟩
  · simp only [session, perform, ran]
  · rw [renewal_renews, again]
  · rintro rfl
    rw [ran] at again
    exact congrArg (fun whole => whole.2.2) again

/-- A walk over the fork has given all that its filter includes, and has refused an order. After
a reset it gives a commit as a new walk does that has the same filter and no order. -/
theorem reset_renews_fork :
    ∃ walk, History fork
        [(.set (.filter (.atMost 1 0)), .done), (.set (.mark (.start (.uniform 3))), .done),
          (.next, .commit (some ⟨.uniform 3, .zero, [.uniform 1], 3⟩)), (.next, .commit none),
          (.set (.order { reversed := true }), .failed .walkStarted)] walk ∧
      walk.order = {} ∧ walk.filter.fresh = .atMost 1 0 ∧
      (session fork [.reset, .set (.mark (.start (.uniform 2))), .next] walk {}).1 =
        (session fork (walk.renewal ++ [.set (.mark (.start (.uniform 2))), .next])
          {} {}).1.tail := by
  have answered : (session fork [.set (.filter (.atMost 1 0)), .set (.mark (.start (.uniform 3))),
      .next, .next, .set (.order { reversed := true })] {} {}).1 =
      [.done, .done, .commit (some ⟨.uniform 3, .zero, [.uniform 1], 3⟩), .commit none,
        .failed .walkStarted] := by
    decide +kernel
  obtain ⟨walk, _, _, history, _⟩ := exists_history answered
  obtain ⟨order, filter, renews⟩ := reset_renews history
  refine ⟨walk, history, order, filter, ?_⟩
  obtain ⟨replies, last, settled⟩ := renews [.set (.mark (.start (.uniform 2))), .next]
  obtain ⟨_, _, reset, renewed, _⟩ :=
    settled {} {} (Graph.faithful_empty fork) (Graph.faithful_empty fork)
  rw [reset, renewed]
  rfl

end Ancestry.Walk
