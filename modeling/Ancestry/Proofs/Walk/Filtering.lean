import Ancestry.Proofs.Walk.Coverage

/-!
# Filters do not steer

The traversal is the same under every filter. What a walk gives under a filter is
therefore the outcome of asking the filter about the commits that the walk gives under
none, one after another, in the order in which it gives them.
-/

namespace Ancestry

namespace Filter

variable {source : Source} {ending : Option Fault}

/-- A filter leaves out commits but never changes their order. -/
theorem select_sublist (filter : Filter) (nodes : List Node) :
    (filter.select source ending nodes).1.Sublist nodes := by
  induction nodes generalizing filter with
  | nil => exact .refl []
  | cons node rest inductionHypothesis =>
    rw [select]
    split
    · exact List.nil_sublist _
    · exact List.nil_sublist _
    · exact (inductionHypothesis _).cons node
    · exact (inductionHypothesis _).cons_cons node

/-- A limit takes commits from the front, and the next one ends the pass. -/
theorem select_atMost (limit seen : Nat) (nodes : List Node) :
    select source ending (.atMost limit seen) nodes =
      (nodes.take (limit - seen), if nodes.length ≤ limit - seen then ending else none) := by
  induction nodes generalizing seen with
  | nil => simp [select]
  | cons node rest inductionHypothesis =>
    by_cases full : limit ≤ seen
    · have stopped : answer source node (.atMost limit seen) = (.ok .stop, .atMost limit seen) := by
        simp [answer, judge, full]
      simp [select, stopped, Nat.sub_eq_zero_of_le full]
    · have included : answer source node (.atMost limit seen) =
          (.ok .include, .atMost limit (seen + 1)) := by
        simp [answer, judge, full]
      have left : limit - seen = limit - (seen + 1) + 1 := by omega
      simp only [select, included, inductionHypothesis, left, List.take_succ_cons, List.length_cons,
        Nat.add_le_add_iff_right]

end Filter

namespace Walk

variable {source : Source} {walk : Walk} {graph : Graph} {roots hidden : List ObjectId}

/-- A new walk after some marks, the choice of a filter, and further marks. -/
def markUnder (source : Source) (filter : Filter) (earlier later : List Mark) (graph : Graph) :
    Walk × Graph :=
  match markAll source earlier {} graph with
  | (walk, graph) =>
    match setFilter filter walk graph with
    | (_, walk, graph) => markAll source later walk graph

/-- Some marks are made, and then the others. -/
theorem markAll_append (earlier later : List Mark) (walk : Walk) (graph : Graph) :
    markAll source (earlier ++ later) walk graph =
      markAll source later (markAll source earlier walk graph).1
        (markAll source earlier walk graph).2 := by
  induction earlier generalizing walk graph with
  | nil => rfl
  | cons mark rest inductionHypothesis =>
    rw [List.cons_append, markAll, markAll]
    exact inductionHypothesis _ _

/-- The choice of a filter between marks changes the filter alone: the queue and the steering
marks are those of the walk that is told the same under no filter. -/
theorem markUnder_state (filter : Filter) (earlier later : List Mark)
    (faithful : graph.Faithful source) :
    ∃ roots hidden,
      (markUnder source filter earlier later graph).1.Marked source roots hidden ∧
      SameState (markAll source (earlier ++ later) {} graph).1
        (markUnder source filter earlier later graph).1 ∧
      SamePass {} (markUnder source filter earlier later graph).1 ∧
      (markUnder source filter earlier later graph).1.filter = filter ∧
      (markUnder source filter earlier later graph).2.Faithful source := by
  obtain ⟨first, between⟩ := markAll_tells earlier (marked_new source .everything {}) faithful
  have marked := first.started
  have chosen : { (markAll source earlier {} graph).1 with filter }.Marked source _ _ :=
    marked.choose filter _
  obtain ⟨plain, _⟩ := markAll_tells later marked between
  obtain ⟨under, kept⟩ := markAll_tells later chosen between
  have ran : markUnder source filter earlier later graph =
      markAll source later { (markAll source earlier {} graph).1 with filter }
        (markAll source earlier {} graph).2 := by
    simp only [markUnder, Walk.setFilter, whenConfigured, marked.phase, if_true]
  have front := plain.front under rfl (choice_state _ filter _).toSameFront
  have same := front.state (plain.marked marked).settled (under.marked chosen).settled
  have pass : SamePass {} { (markAll source earlier {} graph).1 with filter } :=
    ⟨first.rest.order, first.rest.phase, first.rest.output⟩
  rw [ran, markAll_append]
  exact ⟨_, _, under.marked chosen, same, pass.trans under.rest.toSamePass, under.rest.filter,
    kept⟩

/-- One walk without a filter and with one, which is chosen before, between or after the
marks. Whatever the marks are, the second gives what the filter selects from what the first
gives, ends as the filter or the first ends, and gives nothing from then on.

Proof: marks touch no filter and a filter touches no marks, so that both walks are in one state when
they start. From there both follow the same course, of which one selects. -/
theorem filtered_pass (filter : Filter) (earlier later : List Mark)
    (faithful : graph.Faithful source) :
    ∃ given ending,
      (∃ after kept, Pass source (markAll source (earlier ++ later) {} graph).1
        (markAll source (earlier ++ later) {} graph).2 given ending after kept) ∧
      ∃ after kept, Pass source (markUnder source filter earlier later graph).1
        (markUnder source filter earlier later graph).2 (filter.select source ending given).1
        (filter.select source ending given).2 after kept ∧
        next source after kept = (.ok none, after, kept) := by
  obtain ⟨tells, stillFaithful⟩ :=
    markAll_tells (earlier ++ later) (marked_new source .everything {}) faithful
  obtain ⟨given, ending, after, kept, course, whole, _⟩ := tells.whole stillFaithful
  obtain ⟨roots, hidden, marked, same, pass, chosen, faithfulUnder⟩ :=
    markUnder_state filter earlier later faithful
  have byTime : (markUnder source filter earlier later graph).1.order.needsAll = false := by
    rw [pass.order]
    rfl
  obtain ⟨last, store, filtered, exhausted⟩ :=
    (course.congr same).passes marked byTime pass.output faithfulUnder
  rw [chosen] at filtered
  exact ⟨given, ending, ⟨after, kept, whole⟩, last, store, filtered, next_exhausted exhausted⟩

/-- A limit of one, chosen between two marks, gives the first commit of the fork and ends the
pass cleanly. -/
theorem filtered_pass_fork :
    ∃ given ending,
      (∃ after kept, Pass fork (markAll fork [.start (.uniform 2), .hide (.uniform 3)] {} {}).1
        (markAll fork [.start (.uniform 2), .hide (.uniform 3)] {} {}).2 given ending after kept) ∧
      ∃ after kept, Pass fork
        (markUnder fork (.atMost 1 0) [.start (.uniform 2)] [.hide (.uniform 3)] {}).1
        (markUnder fork (.atMost 1 0) [.start (.uniform 2)] [.hide (.uniform 3)] {}).2
        (given.take 1) (if given.length ≤ 1 then ending else none) after kept ∧
        next fork after kept = (.ok none, after, kept) := by
  have both := filtered_pass (.atMost 1 0) [.start (.uniform 2)] [.hide (.uniform 3)]
    (Graph.faithful_empty fork)
  simpa only [Filter.select_atMost, List.cons_append, List.nil_append, Nat.sub_zero] using both

end Walk

end Ancestry
