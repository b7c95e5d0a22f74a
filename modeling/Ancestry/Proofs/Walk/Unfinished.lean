import Ancestry.Proofs.Walk.Lifecycle

/-!
# Walks that were not cut short

A search for commits is cut short where a visit fails, where the filter stops it, and where only
hidden commits are left. What is queued is forgotten then. In all other states, between operations
and between the visits of a search, the queue holds the commits that are discovered and not
visited, and the counter tells how many of them are not hidden.
-/

namespace Ancestry.Walk

variable {source : Source} {walk after : Walk} {graph kept : Graph} {node : Node}
  {rest nodes : List Node} {all : Bool} {events : List Event}

/-- A search comes to a visit that ends the pass or fails. One for all commits goes on behind those
that it finds. -/
inductive Breaks (source : Source) (all : Bool) : Walk → Graph → Prop where
  | ended {walk after : Walk} {graph kept : Graph} {node : Node} {rest : List Node}
      (first : walk.pending = node :: rest)
      (ran : visit source node walk graph = (.ok .finish, after, kept)) :
      Breaks source all walk graph
  | failed {walk after : Walk} {graph kept : Graph} {node : Node} {rest : List Node} {fault : Fault}
      (first : walk.pending = node :: rest)
      (ran : visit source node walk graph = (.error fault, after, kept)) :
      Breaks source all walk graph
  | later {walk after : Walk} {graph kept : Graph} {node : Node} {rest : List Node}
      {verdict : Verdict} (first : walk.pending = node :: rest)
      (ran : visit source node walk graph = (.ok verdict, after, kept))
      (goes : verdict = .emit → all = true) (breaks : Breaks source all after kept) :
      Breaks source all walk graph

/-- A request for a commit searches, and its search is cut short. -/
def CutShort (source : Source) (walk : Walk) (graph : Graph) : Prop :=
  match walk.phase with
  | .configured => Breaks source walk.order.needsAll walk.running graph
  | .running => walk.output = none ∧ Breaks source false walk graph
  | .exhausted => False

/-- What has happened to a walk of which no request was cut short since its last reset. -/
inductive Whole (source : Source) : List Event → Walk → Prop where
  | new : Whole source [] {}
  | reset {events : List Event} {walk : Walk} (history : History source events walk) :
      Whole source (events ++ [(.reset, .done)]) walk.reset
  | more {events : List Event} {walk after : Walk} {graph kept : Graph} {operation : Operation}
      {reply : Reply} (whole : Whole source events walk) (faithful : graph.Faithful source)
      (ran : perform source operation walk graph = (reply, after, kept))
      (uncut : operation = .next → ¬ CutShort source walk graph) :
      Whole source (events ++ [(operation, reply)]) after

/-- The states of a walk that is not finished by a stop, an early end or a fault: between
operations, where a search begins, and after every visit of a search that goes on. -/
inductive Unfinished (source : Source) : Walk → Prop where
  | idle {events : List Event} {walk : Walk} (whole : Whole source events walk) :
      Unfinished source walk
  | begun {events : List Event} {walk : Walk} (whole : Whole source events walk)
      (phase : walk.phase = .configured) : Unfinished source walk.running
  | visited {walk after : Walk} {graph kept : Graph} {node : Node} {rest : List Node}
      {verdict : Verdict} (unfinished : Unfinished source walk) (faithful : graph.Faithful source)
      (first : walk.pending = node :: rest)
      (ran : visit source node walk graph = (.ok verdict, after, kept))
      (going : verdict ≠ .finish) : Unfinished source after

/-- What happened without a request cut short is a history. -/
theorem Whole.history (whole : Whole source events walk) : History source events walk := by
  induction whole with
  | new => exact .new
  | reset history => exact history.more (Graph.faithful_empty source) rfl
  | more _ faithful ran _ inductionHypothesis => exact inductionHypothesis.more faithful ran

section searches

/-- A visit that neither fails nor ends the pass leaves queue, counter and marks in step. -/
theorem visit_consistent {verdict : Verdict} (consistent : walk.Consistent source)
    (faithful : graph.Faithful source) (first : walk.pending = node :: rest)
    (ran : visit source node walk graph = (.ok verdict, after, kept)) (going : verdict ≠ .finish) :
    after.Consistent source ∧ kept.Faithful source := by
  obtain ⟨result, other, store, again, stillFaithful, stuck | ⟨met, _, advances, proceeds⟩⟩ :=
    visit_cases consistent faithful first
  · obtain ⟨fault, rfl, _⟩ := stuck
    rw [ran] at again
    cases again
  · rw [ran] at again
    cases again
    refine ⟨?_, stillFaithful⟩
    cases proceeds with
    | ended => exact absurd rfl going
    | skipped => exact advances.consistent
    | judged _ _ _ decides =>
      exact advances.consistent.congr
        (decides.state fun finished => going (Except.ok.inj finished))

/-- A search succeeds, and what it leaves is in step; so it is with a search for all, which has not
been cut short then either. -/
def Lasts (source : Source) (all : Bool) (search : Action (Option Node)) : Prop :=
  ∀ ⦃walk graph⦄, walk.Consistent source → graph.Faithful source → ¬ Breaks source all walk graph →
    ∃ found after kept, search walk graph = (.ok found, after, kept) ∧ after.Consistent source ∧
      kept.Faithful source ∧ (found.isSome = true → all = true → ¬ Breaks source all after kept)

/-- A search lasts if it does so after its first visit. -/
theorem searchFirst_lasts {search : Action (Option Node)} (lasts : Lasts source all search) :
    Lasts source all (searchFirst (visit source) search) := by
  intro walk graph consistent faithful unbroken
  cases first : walk.pending with
  | nil =>
    exact ⟨none, walk, graph, searchFirst_nil _ search graph first, consistent, faithful, by simp⟩
  | cons node rest =>
    rw [searchFirst_cons _ search graph first, Action.andThen]
    rcases ran : visit source node walk graph with ⟨fault | verdict, between, store⟩
    · exact absurd (.failed first ran) unbroken
    · have going : verdict ≠ .finish := by
        rintro rfl
        exact unbroken (.ended first ran)
      obtain ⟨settled, stillFaithful⟩ := visit_consistent consistent faithful first ran going
      cases verdict with
      | finish => exact absurd rfl going
      | emit =>
        refine ⟨some node, between, store, rfl, settled, stillFaithful, ?_⟩
        intro _ every breaks
        exact unbroken (.later first ran (fun _ => every) breaks)
      | pass =>
        apply lasts settled stillFaithful
        intro breaks
        exact unbroken (.later first ran (by simp) breaks)

/-- A search that is not cut short lasts, whatever its bound is. -/
theorem nextWithin_lasts (all : Bool) (most : Nat) : Lasts source all (nextWithin source most) := by
  induction most with
  | zero =>
    rw [nextWithin_eq]
    apply searchFirst_lasts
    intro walk graph consistent faithful _
    exact ⟨none, walk, graph, rfl, consistent, faithful, by simp⟩
  | succ most inductionHypothesis =>
    rw [nextWithin_eq]
    exact searchFirst_lasts inductionHypothesis

/-- So does a search for all commits. -/
theorem collectWithin_lasts (most : Nat) (consistent : walk.Consistent source)
    (faithful : graph.Faithful source) (unbroken : ¬ Breaks source true walk graph) :
    ∃ nodes after kept, collectWithin source most walk graph = (.ok nodes, after, kept) ∧
      after.Consistent source := by
  induction most generalizing walk graph with
  | zero =>
    obtain ⟨found, after, kept, ran, settled, _⟩ :=
      nextWithin_lasts true ObjectId.total consistent faithful unbroken
    rw [collectWithin_eq, nextByTime, Action.andThen, ran]
    cases found <;> exact ⟨_, after, kept, rfl, settled⟩
  | succ most inductionHypothesis =>
    obtain ⟨found, between, store, ran, settled, stillFaithful, unbroken⟩ :=
      nextWithin_lasts true ObjectId.total consistent faithful unbroken
    rw [collectWithin_eq, nextByTime, Action.andThen, ran]
    cases found with
    | none => exact ⟨[], between, store, rfl, settled⟩
    | some node =>
      obtain ⟨nodes, after, kept, collected, settled⟩ :=
        inductionHypothesis settled stillFaithful (unbroken rfl rfl)
      refine ⟨node :: nodes, after, kept, ?_, settled⟩
      simp only [gather, Action.andThen, collected, Action.giving, id]

end searches

section requests

/-- Whether a pass has started, and what is kept for giving out, is no part of its state. -/
theorem phase_state (walk : Walk) (phase : Phase) (output : Option (List Node)) :
    SameState walk { walk with phase, output } :=
  ⟨⟨rfl, fun _ => .rfl, fun _ => .rfl⟩, fun _ => .rfl, rfl⟩

/-- Holding commits back sets marks that do not steer. -/
theorem arrange_state (walk : Walk) (nodes : List Node) :
    SameState walk (walk.arrange nodes).2 := by
  have delayed (held : List Node) (walk : Walk) : SameState walk
      (held.foldl (fun walk node => walk.mark node.id ({ · with delayed := true })) walk) := by
    induction held generalizing walk with
    | nil => exact .refl walk
    | cons node rest inductionHypothesis =>
      have marked := mark_state walk node.id ({ · with delayed := true }) fun _ => ⟨rfl, rfl, rfl⟩
      exact marked.trans (inductionHypothesis _)
  rw [arrange]
  by_cases topological : walk.order.topological = true
  · simp only [topological, if_true]
    exact delayed _ walk
  · simp only [topological, if_false, Bool.false_eq_true]
    exact .refl walk

/-- What was kept is given out without a search. -/
theorem continued_kept (output : walk.output = some nodes) (graph : Graph) :
    SameState walk (continued source walk graph).2.1 := by
  cases nodes with
  | nil =>
    simp only [continued, guarded, proceed, output]
    exact phase_state walk .exhausted (some [])
  | cons node rest =>
    simp only [continued, guarded, proceed, output]
    exact phase_state walk walk.phase (some rest)

/-- A search by time that is not cut short leaves what is queued in step. -/
theorem continued_consistent (consistent : walk.Consistent source)
    (faithful : graph.Faithful source)
    (unbroken : walk.output = none → ¬ Breaks source false walk graph) :
    (continued source walk graph).2.1.Consistent source := by
  cases output : walk.output with
  | some nodes => exact consistent.congr (continued_kept output graph)
  | none =>
    obtain ⟨found, after, kept, ran, settled, _⟩ :=
      nextWithin_lasts false ObjectId.total consistent faithful (unbroken output)
    rw [continued_eq output, nextByTime, ran]
    cases found with
    | none => exact settled.congr (phase_state after .exhausted after.output)
    | some node => exact settled

/-- So does every request that is not cut short. -/
theorem next_consistent (waits : walk.phase = .configured → walk.output = none)
    (consistent : walk.Consistent source) (faithful : graph.Faithful source)
    (uncut : ¬ CutShort source walk graph) :
    (next source walk graph).2.1.Consistent source := by
  cases phase : walk.phase with
  | exhausted =>
    rw [next_exhausted phase]
    exact consistent
  | running =>
    simp only [CutShort, phase] at uncut
    simp only [next, phase]
    exact continued_consistent consistent faithful fun output breaks => uncut ⟨output, breaks⟩
  | configured =>
    simp only [CutShort, phase] at uncut
    have started := consistent.congr (running_state walk)
    cases byTime : walk.order.needsAll with
    | false =>
      rw [byTime] at uncut
      rw [next_open ⟨byTime, by simp [phase], waits phase⟩]
      exact continued_consistent started faithful fun _ => uncut
    | true =>
      rw [byTime] at uncut
      obtain ⟨nodes, between, store, collected, settled⟩ :=
        collectWithin_lasts ObjectId.total started faithful uncut
      change collect source { walk with phase := .running } graph = _ at collected
      simp only [next, phase, start, byTime, if_true, guarded, collected]
      have arranged := (arrange_state between nodes).trans
        (phase_state _ (between.arrange nodes).2.phase (some (between.arrange nodes).1))
      exact settled.congr (arranged.trans (continued_kept rfl store))

end requests

section operations

/-- What is refused after the start changes nothing. -/
theorem whenConfigured_consistent {action : Action Unit} (consistent : walk.Consistent source)
    (done : (action walk graph).2.1.Consistent source) :
    (whenConfigured action walk graph).2.1.Consistent source := by
  rw [whenConfigured]
  split
  · exact done
  · exact consistent

/-- A setting that is done or refused leaves what is queued in step. -/
theorem setting_consistent (setting : Setting) (consistent : walk.Consistent source)
    (faithful : graph.Faithful source) :
    (setting.action source walk graph).2.1.Consistent source := by
  cases setting with
  | filter filter =>
    apply whenConfigured_consistent consistent
    exact consistent.congr (choice_state walk filter walk.order)
  | order order =>
    apply whenConfigured_consistent consistent
    exact consistent.congr (choice_state walk walk.filter order)
  | mark told =>
    cases told with
    | start id =>
      apply whenConfigured_consistent consistent
      obtain ⟨store, answered, _⟩ := faithful.resolve id
      rw [answered]
      cases resolved : source.node id with
      | error fault => exact consistent
      | ok node => exact consistent.discover (Source.node_of_id resolved)
    | hide id =>
      apply whenConfigured_consistent consistent
      obtain ⟨store, answered, faithful⟩ := faithful.resolve id
      rw [answered]
      cases resolved : source.node id with
      | error fault => exact consistent
      | ok node =>
        obtain ⟨between, store, hidden, _, settled, _⟩ := carryHidden_hides id consistent faithful
        simp only [hidden]
        exact settled.discover (Source.node_of_id resolved)

/-- A walk that waits for its pass has kept nothing. -/
theorem Stage.output_none {replies : List Reply} (stage : Stage source walk replies)
    (waits : walk.phase = .configured) : walk.output = none := by
  cases stage with
  | waiting _ output => exact output
  | giving phase | finished phase =>
    rw [phase] at waits
    cases waits

/-- Between operations queue, counter and marks are in step. -/
theorem Whole.consistent (whole : Whole source events walk) : walk.Consistent source := by
  induction whole with
  | new => exact (marked_new source .everything {}).consistent
  | @reset _ walk => exact (marked_new source walk.filter.fresh walk.order).consistent
  | @more _ walk _ graph _ operation _ whole faithful ran uncut inductionHypothesis =>
    cases operation with
    | next =>
      have settled := next_consistent whole.history.stage.output_none inductionHypothesis faithful
        (uncut rfl)
      simp only [perform] at ran
      rw [← (Prod.mk.inj (Prod.mk.inj ran).2).1]
      exact settled
    | set setting =>
      have settled := setting_consistent setting inductionHypothesis faithful
      simp only [perform] at ran
      rw [← (Prod.mk.inj (Prod.mk.inj ran).2).1]
      exact settled
    | body node =>
      simp only [perform, body] at ran
      rw [← (Prod.mk.inj (Prod.mk.inj ran).2).1]
      rcases graph.message source node with ⟨fault | text, store⟩
      · exact inductionHypothesis
      · exact inductionHypothesis.congr
          (mark_state walk node.id ({ · with bodyRead := true }) fun _ => ⟨rfl, rfl, rfl⟩)
    | marks | describe =>
      cases ran
      exact inductionHypothesis
    | reset =>
      cases ran
      exact (marked_new source walk.filter.fresh walk.order).consistent

/-- So they are in every state of a walk that is not finished early. -/
theorem Unfinished.consistent (unfinished : Unfinished source walk) : walk.Consistent source := by
  induction unfinished with
  | idle whole => exact whole.consistent
  | @begun _ walk whole => exact whole.consistent.congr (running_state walk)
  | visited _ faithful first ran going inductionHypothesis =>
    exact (visit_consistent inductionHypothesis faithful first ran going).1

end operations

end Ancestry.Walk
