import Ancestry.Proofs.Answers
import Ancestry.Proofs.Walk.Visiting

/-!
# What one visit does

A visit fails at a parent that does not resolve, or it meets all parents and then does one
of three things. A hidden commit is passed over, or ends the pass if only hidden commits
are left. Any other commit is put to the filter, whose answer decides. Every later
statement about a walk starts from these cases.

How a visit advances the traversal depends only on the state that steers: two walks in
the same state are in the same state after it, whatever their filters decide.
-/

namespace Ancestry.Walk

variable {source : Source} {walk : Walk} {graph : Graph} {node : Node} {rest : List Node}

/-- What follows from a decision of the filter. -/
def Verdict.ofOutcome : Outcome → Verdict
  | .include => .emit
  | .exclude => .pass
  | .stop => .finish

/-- What the filter's answer does to a walk. A stop empties the queue. -/
structure Decides (source : Source) (node : Node) (before : Walk) (result : Except Fault Verdict)
    (after : Walk) : Prop where
  decided : result = (before.filter.answer source node).1.map Verdict.ofOutcome
  filter : after.filter = (before.filter.answer source node).2
  pass : SamePass before after
  marks : SameState before
    { after with pending := before.pending, interesting := before.interesting }
  stopped : result = .ok .finish → after.pending = []
  going : result ≠ .ok .finish →
    after.pending = before.pending ∧ after.interesting = before.interesting

/-- The message of a node of the source is there to be read, so that preparing the filter
never fails. -/
theorem prepare_ready (walk : Walk) (faithful : graph.Faithful source)
    (resolved : source.node node.id = .ok node) :
    ∃ ready kept, prepare source node walk graph = (.ok (), ready, kept) ∧ kept.Faithful source ∧
      SameState walk ready ∧ SamePass walk ready ∧ ready.filter = walk.filter := by
  by_cases needed : walk.filter.needsMessage
  · obtain ⟨text, readable⟩ := Source.message_of_node resolved
    obtain ⟨kept, answered, faithful⟩ := faithful.message node
    exact ⟨walk.mark node.id ({ · with bodyRead := true }), kept,
      by simp [prepare, needed, body, answered, readable, Except.map], faithful,
      mark_state walk node.id _ fun _ => ⟨rfl, rfl, rfl⟩, ⟨rfl, rfl, rfl⟩, rfl⟩
  · exact ⟨walk, graph, by simp [prepare, needed], faithful, .refl walk, .refl walk, rfl⟩

/-- A decision that does not stop the walk leaves its state as it was. -/
theorem Decides.of_state {before after : Walk} {result : Except Fault Verdict}
    (decided : result = (before.filter.answer source node).1.map Verdict.ofOutcome)
    (filter : after.filter = (before.filter.answer source node).2) (pass : SamePass before after)
    (same : SameState before after) (going : result ≠ .ok .finish) :
    Decides source node before result after where
  decided := decided
  filter := filter
  pass := pass
  marks := ⟨⟨rfl, same.discovered, same.visited⟩, same.hidden, rfl⟩
  stopped finished := absurd finished going
  going _ := ⟨same.pending.symm, same.interesting.symm⟩

/-- Asking the filter about a node gives the filter's answer and changes nothing that
steers. -/
theorem judge_answers (walk : Walk) (faithful : graph.Faithful source)
    (resolved : source.node node.id = .ok node) :
    ∃ asked kept,
      judge source node walk graph = ((walk.filter.answer source node).1, asked, kept) ∧
      kept.Faithful source ∧ SameState walk asked ∧ SamePass walk asked ∧
      asked.filter = (walk.filter.answer source node).2 := by
  obtain ⟨ready, between, prepared, faithful, same, pass, filter⟩ :=
    prepare_ready walk faithful resolved
  obtain ⟨kept, judged, faithful⟩ := ready.filter.judge_answer source node between faithful
  rw [filter] at judged
  have askedState : SameState walk { ready with filter := (walk.filter.answer source node).2 } :=
    ⟨⟨same.pending, same.discovered, same.visited⟩, same.hidden, same.interesting⟩
  exact ⟨_, kept, by simp [judge, prepared, filter, judged], faithful, askedState,
    ⟨pass.order, pass.phase, pass.output⟩, rfl⟩

/-- Putting a node to the filter does what the filter's answer says. -/
theorem decideOn_decides (walk : Walk) (faithful : graph.Faithful source)
    (resolved : source.node node.id = .ok node) :
    ∃ result after kept, decideOn source node walk graph = (result, after, kept) ∧
      kept.Faithful source ∧ Decides source node walk result after := by
  obtain ⟨asked, kept, judged, faithful, same, pass, filter⟩ :=
    judge_answers walk faithful resolved
  cases answer : (walk.filter.answer source node).1 with
  | error fault =>
    refine ⟨.error fault, asked, kept, by simp [decideOn, judged, answer], faithful, ?_⟩
    exact .of_state (by rw [answer]; rfl) filter pass same (by simp)
  | ok outcome =>
    cases outcome with
    | «include» =>
      have marked := mark_state asked node.id ({ · with emitted := true }) fun _ => ⟨rfl, rfl, rfl⟩
      refine ⟨.ok .emit, asked.mark node.id ({ · with emitted := true }), kept,
        by simp [decideOn, judged, answer], faithful, ?_⟩
      exact .of_state (by rw [answer]; rfl) filter ⟨pass.order, pass.phase, pass.output⟩
        (same.trans marked) (by simp)
    | exclude =>
      refine ⟨.ok .pass, asked, kept, by simp [decideOn, judged, answer], faithful, ?_⟩
      exact .of_state (by rw [answer]; rfl) filter pass same (by simp)
    | stop =>
      refine ⟨.ok .finish, asked.clearPending, kept, by simp [decideOn, judged, answer],
        faithful, ?_⟩
      exact ⟨by rw [answer]; rfl, filter, ⟨pass.order, pass.phase, pass.output⟩,
        ⟨⟨rfl, same.discovered, same.visited⟩, same.hidden, rfl⟩, fun _ => rfl,
        fun going => absurd rfl going⟩

/-- Unless the filter stops the walk, the traversal goes on as it was. -/
theorem Decides.state {before after : Walk} {result : Except Fault Verdict}
    (decides : Decides source node before result after) (going : result ≠ .ok .finish) :
    SameState before after :=
  ⟨⟨(decides.going going).1.symm, decides.marks.discovered, decides.marks.visited⟩,
    decides.marks.hidden, (decides.going going).2.symm⟩

section advances

/-- The parents of the first commit are met and the traversal can go on. Whatever the
marks were exact for, they stay so. -/
structure Advances (source : Source) (node : Node) (before after : Walk) : Prop where
  consistent : after.Consistent source
  visited : ∀ id, after.Visited id ↔ before.Visited id ∨ id = node.id
  discovered : ∀ id, after.Discovered id ↔ before.Discovered id ∨ id ∈ node.parents
  queue : enlist source node.parents before.knows before.pending.tail = .ok after.pending
  exact : ∀ roots hidden, before.Exact source roots hidden → after.Exact source roots hidden

variable {before after other : Walk}

/-- After a visit the marks are settled again. -/
theorem Advances.settled {roots hidden : List ObjectId}
    (advances : Advances source node before after)
    (settled : before.Settled source roots hidden) : after.Settled source roots hidden :=
  ⟨advances.consistent, advances.exact roots hidden settled.exact⟩

/-- What follows may be any walk in the same state. -/
theorem Advances.congr (advances : Advances source node before after)
    (same : SameState after other) : Advances source node before other where
  consistent := advances.consistent.congr same
  visited id := (same.visited id).symm.trans (advances.visited id)
  discovered id := (same.discovered id).symm.trans (advances.discovered id)
  queue := same.pending ▸ advances.queue
  exact roots hidden exactness := (advances.exact roots hidden exactness).congr same

/-- What comes before may be any walk in the same state. -/
theorem Advances.congr_before (advances : Advances source node before after)
    (same : SameState before other) : Advances source node other after where
  consistent := advances.consistent
  visited id := (advances.visited id).trans (or_congr_left (same.visited id))
  discovered id := (advances.discovered id).trans (or_congr_left (same.discovered id))
  queue := same.pending ▸ same.toSameFront.knows ▸ advances.queue
  exact roots hidden exactness := advances.exact roots hidden (exactness.congr same.symm)

/-- Two walks with the same front have the same front after visits to the same commit. -/
theorem Advances.front {left right nextLeft nextRight : Walk}
    (first : Advances source node left nextLeft) (second : Advances source node right nextRight)
    (same : SameFront left right) : SameFront nextLeft nextRight := by
  refine ⟨?_, fun id => ?_, fun id => ?_⟩
  · have queue := first.queue
    rw [same.knows, same.pending, second.queue] at queue
    exact (Except.ok.inj queue).symm
  · rw [first.discovered, second.discovered, same.discovered]
  · rw [first.visited, second.visited, same.visited]

/-- Exact marks and a consistent counter follow from the front. -/
theorem SameFront.state {left right : Walk} {roots hidden : List ObjectId}
    (same : SameFront left right) (settled : left.Settled source roots hidden)
    (other : right.Settled source roots hidden) : SameState left right := by
  have hides : ∀ id, left.Hidden id ↔ right.Hidden id := fun id => by
    rw [settled.exact.hidden, other.exact.hidden]
    exact Source.leads_congr same.visited id
  refine ⟨same, hides, ?_⟩
  rw [settled.consistent.counted, other.consistent.counted, same.pending, shows_congr hides]

/-- Two walks in the same state are in the same state after visits to the same commit. -/
theorem Advances.unique {left right nextLeft nextRight : Walk} {roots hidden : List ObjectId}
    (first : Advances source node left nextLeft) (second : Advances source node right nextRight)
    (same : SameState left right) (settled : left.Settled source roots hidden) :
    SameState nextLeft nextRight :=
  (first.front second same.toSameFront).state (first.settled settled)
    (second.settled (settled.congr same))

end advances

/-- What a visit does after all parents were met. -/
inductive Proceeds (source : Source) (node : Node) (before met : Walk) :
    Except Fault Verdict → Walk → Prop where
  | ended (hidden : before.Hidden node.id) (all : ∀ other ∈ met.pending, met.Hidden other.id) :
      Proceeds source node before met (.ok .finish) met.clearPending
  | skipped (hidden : before.Hidden node.id)
      (left : ¬ ∀ other ∈ met.pending, met.Hidden other.id) :
      Proceeds source node before met (.ok .pass) met
  | judged (shown : ¬ before.Hidden node.id) (result : Except Fault Verdict) (after : Walk)
      (decides : Decides source node met result after) :
      Proceeds source node before met result after

/-- The counter says whether a shown commit is left in the queue. -/
theorem Consistent.interesting_iff (consistent : walk.Consistent source) :
    walk.interesting = 0 ↔ ∀ other ∈ walk.pending, walk.Hidden other.id := by
  rw [consistent.counted, List.countP_eq_zero]
  simp only [shows_iff, not_not]

/-- The parents of the first commit are met, or one of them does not resolve. -/
theorem expand_advances (consistent : walk.Consistent source) (faithful : graph.Faithful source)
    (first : walk.pending = node :: rest) :
    ∃ result met kept,
      expand source node (walk.marksOf node.id).uninteresting
        (walk.dequeue (walk.marksOf node.id).uninteresting) graph = (result, met, kept) ∧
      kept.Faithful source ∧ KeepsRest walk met ∧
      ((∃ fault, result = .error fault ∧
          enlist source node.parents walk.knows walk.pending.tail = .error fault) ∨
        (result = .ok () ∧ Advances source node walk met)) := by
  obtain ⟨result, met, kept, ran, settled, faithful, unchanged, queue, expands⟩ :=
    expand_expands consistent faithful first
  have tail : walk.pending.tail = rest := by rw [first, List.tail_cons]
  rw [← tail] at queue
  refine ⟨result, met, kept, ran, faithful, unchanged, ?_⟩
  cases result with
  | error fault => exact .inl ⟨fault, rfl, queue⟩
  | ok done =>
    have expanded := expands rfl
    exact .inr ⟨rfl, settled, expanded.visited, expanded.discovered, queue,
      fun _ _ exactness => expanded.exact consistent exactness first⟩

/-- All that a visit can do. -/
theorem visit_cases (consistent : walk.Consistent source) (faithful : graph.Faithful source)
    (first : walk.pending = node :: rest) :
    ∃ result after kept, visit source node walk graph = (result, after, kept) ∧
      kept.Faithful source ∧
      ((∃ fault, result = .error fault ∧ KeepsRest walk after ∧
          enlist source node.parents walk.knows walk.pending.tail = .error fault) ∨
        ∃ met, KeepsRest walk met ∧ Advances source node walk met ∧
          Proceeds source node walk met result after) := by
  obtain ⟨result, met, kept, ran, faithful, unchanged, stuck | ⟨done, advances⟩⟩ :=
    expand_advances consistent faithful first
  · obtain ⟨fault, rfl, unresolved⟩ := stuck
    exact ⟨.error fault, met, kept, by simp [visit, ran], faithful,
      .inl ⟨fault, rfl, unchanged, unresolved⟩⟩
  · subst done
    have settled := advances.consistent
    by_cases hidden : (walk.marksOf node.id).uninteresting = true
    · by_cases none : met.interesting = 0
      · exact ⟨.ok .finish, met.clearPending, kept, by simp only [visit, ran]; simp [hidden, none],
          faithful, .inr ⟨met, unchanged, advances,
            .ended hidden (settled.interesting_iff.mp none)⟩⟩
      · exact ⟨.ok .pass, met, kept, by simp only [visit, ran]; simp [hidden, none], faithful,
          .inr ⟨met, unchanged, advances,
            .skipped hidden fun all => none (settled.interesting_iff.mpr all)⟩⟩
    · have resolved := consistent.resolved node (by simp [first])
      obtain ⟨result, after, last, decided, faithful, decides⟩ :=
        decideOn_decides met faithful resolved
      exact ⟨result, after, last, by simp only [visit, ran]; simp [hidden, decided], faithful,
        .inr ⟨met, unchanged, advances, .judged hidden result after decides⟩⟩

end Ancestry.Walk
