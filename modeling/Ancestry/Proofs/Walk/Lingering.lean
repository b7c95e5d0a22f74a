import Ancestry.Proofs.Walk.Emptying

/-!
# Walks that do not end early

A walk ends early when a visited commit is hidden and no shown commit is left in the queue. A
walk that lingers goes on instead until its queue is empty. It differs in its visits alone, and
they follow the same course: once only hidden commits wait, whatever joins the queue is hidden
as well.
-/

namespace Ancestry.Walk

variable {source : Source} {walk met : Walk} {graph : Graph} {node : Node} {shown rest : List Node}
  {ending : Option Fault} {roots hidden : List ObjectId}

/-- A visit that never ends the pass because only hidden commits are left. -/
def linger (source : Source) (node : Node) : Action Verdict :=
  (meet source node).andThen fun hidden =>
    if hidden then .giving .pass id else decideOn source node

/-- Where only hidden commits wait nothing more is shown. -/
theorem Settled.course_veiled (settled : walk.Settled source roots hidden)
    (resolves : ∀ id, source.Reached roots id → source.Resolves id)
    (all : ∀ other ∈ walk.pending, walk.Hidden other.id) : Course source walk [] none := by
  obtain ⟨shown, ending, course⟩ := exists_course settled.consistent
  cases course with
  | idle empty => exact .idle empty
  | stuck first unresolved => exact absurd unresolved (settled.not_stuck resolves first _)
  | early first advances veiled rest => exact .early first advances veiled rest
  | skipped first advances veiled left => exact absurd (advances.veiled settled first all) left
  | shown first advances visible => exact absurd (all _ (by simp [first])) visible

/-- What a traversal shows from a hidden commit on is shown after it. -/
theorem Course.behind (course : Course source walk shown ending)
    (settled : walk.Settled source roots hidden)
    (resolves : ∀ id, source.Reached roots id → source.Resolves id)
    (first : walk.pending = node :: rest) (advances : Advances source node walk met)
    (veiled : walk.Hidden node.id) : Course source met shown ending := by
  rcases course.after settled first advances with
    ⟨_, all, rfl, rfl⟩ | ⟨_, _, onward⟩ | ⟨visible, _⟩
  · exact (advances.settled settled).course_veiled resolves all
  · exact onward
  · exact absurd veiled visible

/-- A commit that is not hidden is visited as ever. -/
theorem linger_visible (visible : ¬ walk.Hidden node.id) :
    linger source node walk graph = visit source node walk graph := by
  have shown : (walk.marksOf node.id).uninteresting = false := by simpa [Hidden] using visible
  rw [visit_eq, linger]
  simp only [meet, Action.andThen, shown]
  rcases expand source node false (walk.dequeue false) graph with ⟨fault | done, after, kept⟩ <;>
    rfl

/-- The visits of a walk that lingers follow the course, where everything that is reached
resolves. -/
theorem linger_traverses (resolves : ∀ id, source.Reached roots id → source.Resolves id) :
    Traverses source roots hidden (linger source) where
  takes {walk graph node rest shown ending} settled faithful first course := by
    by_cases veiled : walk.Hidden node.id
    · obtain ⟨result, met, kept, ran, faithful, unchanged, stuck | ⟨rfl, advances⟩⟩ :=
        expand_advances settled.consistent faithful first
      · obtain ⟨fault, _, unresolved⟩ := stuck
        exact absurd unresolved (settled.not_stuck resolves first fault)
      · have fewer := advances.fewer (settled.consistent.waiting first).2
        have marked : (walk.marksOf node.id).uninteresting = true := veiled
        refine ⟨.ok .pass, met, kept, ?_, faithful, unchanged.toSamePass, .skipped unchanged.filter
          ⟨advances.settled settled, fewer, course.behind settled resolves first advances veiled⟩⟩
        rw [marked] at ran
        simp only [linger, meet, Action.andThen, marked, ran, Action.giving, if_true, id]
    · rw [linger_visible veiled]
      exact visit_takes settled faithful first course
  clears {walk after graph kept node} finished := by
    obtain ⟨hidden, between, store, _, settled⟩ := Action.of_andThen finished
    cases hidden with
    | true => cases settled
    | false => exact decideOn_clears settled

/-- A walk with any settings against one that does not end early but goes on until its queue is
empty. Where everything that the marked commits reach resolves, both give the same commits in the
same sequence and end alike, whatever the times of the commits are, and whatever the filter and
the order. The requests of the second walk differ from those of the first in the visits alone.

Proof: once only hidden commits wait, their visits queue and show none but hidden ones. So both
kinds of visits traverse the same course, and every traversal of it gives the same pass. -/
theorem lingering_gives_same (settings : List Setting) (faithful : graph.Faithful source)
    (resolves : ∀ id, source.Reached (Setting.commits settings) id → source.Resolves id) :
    requestBy (searchBy (visit source) ObjectId.total) = next source ∧
      ∃ given ending,
        (∃ after kept, PassBy (next source) (configure source settings {} graph).1
          (configure source settings {} graph).2 given ending after kept) ∧
        ∃ other store, PassBy (requestBy (searchBy (linger source) ObjectId.total))
          (configure source settings {} graph).1 (configure source settings {} graph).2 given ending
          other store ∧ other.pending = [] := by
  have requests : requestBy (searchBy (visit source) ObjectId.total) = next source := by
    rw [searchBy_visit]
    exact requestBy_next
  refine ⟨requests, ?_⟩
  obtain ⟨ready, stillFaithful⟩ := configure_new settings faithful
  have marked := ready.marked
  rw [List.nil_append, List.nil_append] at marked
  have known : ∀ id, source.Reached (Mark.roots source (Setting.marks settings)) id →
      source.Resolves id := fun id reached =>
    resolves id (Source.reached_mono Mark.roots_marked reached)
  obtain ⟨shown, last, course⟩ := exists_course marked.consistent
  obtain ⟨after, kept, pass, _⟩ := course.presents marked ready.output stillFaithful
  obtain ⟨other, store, lingers, _, empty⟩ :=
    (linger_traverses known).answering.presents course marked ready.output stillFaithful
  exact ⟨_, _, ⟨after, kept, passBy_next.mpr pass⟩, other, store, lingers, empty⟩

/-- One tip of the fork is hidden, so that the base is left in the queue when the other tip has been
given. -/
theorem lingering_gives_same_fork :
    ∃ given ending,
      (∃ after kept, PassBy (next fork)
        (configure fork [.mark (.start (.uniform 2)), .mark (.hide (.uniform 3))] {} {}).1
        (configure fork [.mark (.start (.uniform 2)), .mark (.hide (.uniform 3))] {} {}).2
        given ending after kept) ∧
      ∃ other store, PassBy (requestBy (searchBy (linger fork) ObjectId.total))
        (configure fork [.mark (.start (.uniform 2)), .mark (.hide (.uniform 3))] {} {}).1
        (configure fork [.mark (.start (.uniform 2)), .mark (.hide (.uniform 3))] {} {}).2
        given ending other store ∧ other.pending = [] :=
  (lingering_gives_same [.mark (.start (.uniform 2)), .mark (.hide (.uniform 3))]
    (Graph.faithful_empty fork) (fork_resolves (by decide))).2

end Ancestry.Walk
