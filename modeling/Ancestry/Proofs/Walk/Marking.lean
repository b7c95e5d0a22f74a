import Ancestry.Proofs.Walk.Hiding
import Ancestry.Proofs.Walk.Requests

/-!
# Marking before a pass

Before its pass a walk is told where to start and what to hide. Either kind of mark puts
its commit into the queue, and a mark whose commit does not resolve fails without a trace.
So the queue depends only on which commits were marked in which order, and the marked
commits are the roots of the traversal.
-/

namespace Ancestry

/-- What a walk is told before its pass. -/
inductive Mark where
  | start (id : ObjectId)
  | hide (id : ObjectId)

namespace Mark

/-- The marked commit. -/
def id : Mark → ObjectId
  | .start id => id
  | .hide id => id

/-- The commit where the walk is to start. -/
def started : Mark → Option ObjectId
  | .start id => some id
  | .hide _ => none

/-- The commit that is to be hidden. -/
def hidden : Mark → Option ObjectId
  | .start _ => none
  | .hide id => some id

/-- Telling a walk. -/
def action (source : Source) : Mark → Walk.Action Unit
  | .start id => Walk.markStart source id
  | .hide id => Walk.hide source id

/-- The marks whose commits resolve. -/
def resolving (source : Source) (marks : List Mark) : List Mark :=
  marks.filter fun mark => (source.node mark.id).isOk

/-- The commits that the marks put into the queue. -/
def roots (source : Source) (marks : List Mark) : List ObjectId :=
  (resolving source marks).map id

/-- The commits that the marks hide. -/
def veiled (source : Source) (marks : List Mark) : List ObjectId :=
  (resolving source marks).filterMap hidden

variable {source : Source} {marks : List Mark}

/-- The roots are among the marked commits. -/
theorem roots_marked : ∀ root ∈ roots source marks, root ∈ marks.map id := by
  intro root member
  obtain ⟨mark, resolves, rfl⟩ := List.mem_map.mp member
  exact List.mem_map_of_mem (List.mem_of_mem_filter resolves)

/-- What is hidden was to be hidden. -/
theorem veiled_hidden : ∀ root ∈ veiled source marks, root ∈ marks.filterMap hidden := by
  intro root member
  obtain ⟨mark, resolves, hides⟩ := List.mem_filterMap.mp member
  exact List.mem_filterMap.mpr ⟨mark, List.mem_of_mem_filter resolves, hides⟩

/-- What is hidden is also put into the queue. -/
theorem veiled_roots : ∀ root ∈ veiled source marks, root ∈ roots source marks := by
  intro root member
  obtain ⟨mark, resolves, hides⟩ := List.mem_filterMap.mp member
  cases mark with
  | start id => cases hides
  | hide id =>
    obtain rfl := Option.some.inj hides
    exact List.mem_map_of_mem resolves

/-- Which marks resolve is decided for each by itself. -/
theorem resolving_cons (source : Source) (mark : Mark) (rest : List Mark) :
    resolving source (mark :: rest) = resolving source [mark] ++ resolving source rest :=
  List.filter_append [mark] rest

/-- The roots of some marks are those of the first and of the rest. -/
theorem roots_cons (source : Source) (mark : Mark) (rest : List Mark) :
    roots source (mark :: rest) = roots source [mark] ++ roots source rest := by
  rw [roots, resolving_cons, List.map_append]
  rfl

/-- What some marks hide is what the first and the rest hide. -/
theorem veiled_cons (source : Source) (mark : Mark) (rest : List Mark) :
    veiled source (mark :: rest) = veiled source [mark] ++ veiled source rest := by
  rw [veiled, resolving_cons, List.filterMap_append]
  rfl

/-- Where all commits resolve, every mark counts. -/
theorem resolving_all
    (resolved : ∀ mark ∈ marks, source.Resolves mark.id) : resolving source marks = marks := by
  refine List.filter_eq_self.mpr fun mark member => ?_
  obtain ⟨node, resolves⟩ := resolved mark member
  rw [resolves]
  rfl

end Mark

namespace Walk

variable {source : Source} {walk : Walk} {graph : Graph} {node : Node}
  {roots hidden : List ObjectId}

/-- One mark after another, also after a mark that fails. -/
def markAll (source : Source) : List Mark → Walk → Graph → Walk × Graph
  | [], walk, graph => (walk, graph)
  | mark :: rest, walk, graph =>
    match mark.action source walk graph with
    | (_, walk, graph) => markAll source rest walk graph

/-- A walk between marks. Nothing has been visited, so that the roots are exactly what is
discovered and hidden. -/
structure Marked (source : Source) (roots hidden : List ObjectId) (walk : Walk) : Prop where
  consistent : walk.Consistent source
  phase : walk.phase = .configured
  unvisited : ∀ id, ¬ walk.Visited id
  discovered : ∀ id, walk.Discovered id ↔ id ∈ roots
  hidden : ∀ id, walk.Hidden id ↔ id ∈ hidden

/-- No mark has been set in a new walk. -/
theorem marked_new (source : Source) (filter : Filter) (order : Order) :
    Marked source [] [] { filter, order } := by
  have blank : ∀ id, marksOf { filter, order } id = {} := fun id => by simp [marksOf]
  refine ⟨⟨?_, ?_, ?_, ?_, ?_, ?_⟩, rfl, ?_, ?_, ?_⟩ <;>
    simp [Discovered, Visited, Hidden, blank]

/-- Another filter or another order makes no other state. -/
theorem choice_state (walk : Walk) (filter : Filter) (order : Order) :
    SameState walk { walk with filter, order } :=
  ⟨⟨rfl, fun _ => .rfl, fun _ => .rfl⟩, fun _ => .rfl, rfl⟩

/-- A filter or an order can be chosen between any two marks. -/
theorem Marked.choose (marked : walk.Marked source roots hidden) (filter : Filter)
    (order : Order) : { walk with filter, order }.Marked source roots hidden :=
  ⟨marked.consistent.congr (choice_state walk filter order), marked.phase, marked.unvisited,
    marked.discovered, marked.hidden⟩

/-- Where nothing has been visited, the roots lead to themselves only. -/
theorem Marked.settled (marked : walk.Marked source roots hidden) :
    walk.Settled source roots hidden where
  consistent := marked.consistent
  exact :=
    ⟨fun id => (marked.discovered id).trans (Source.leads_none marked.unvisited id).symm,
      fun id => (marked.hidden id).trans (Source.leads_none marked.unvisited id).symm⟩

/-- What a mark does to the queue: nothing where its commit does not resolve. -/
def queued (source : Source) (walk : Walk) (id : ObjectId) : Walk :=
  match source.node id with
  | .error _ => walk
  | .ok node => walk.discover node

/-- Queueing a node in two walks with the same front gives the same front. -/
theorem SameFront.discover {left right : Walk} (same : SameFront left right) (node : Node) :
    SameFront (left.discover node) (right.discover node) := by
  refine ⟨?_, fun id => ?_, fun id => ?_⟩
  · by_cases known : left.Discovered node.id
    · rw [discover_known known, discover_known ((same.discovered node.id).mp known)]
      exact same.pending
    · have new : ¬ right.Discovered node.id := fun old => known ((same.discovered node.id).mpr old)
      rw [pending_discover known, pending_discover new, same.pending]
  · rw [discover_discovered, discover_discovered, same.discovered]
  · rw [discover_visited, discover_visited, same.visited]

/-- Marking queues the commit and hides it where it is to be hidden. As nothing has been
visited, hiding goes no further. -/
structure Told (source : Source) (mark : Mark) (before after : Walk) : Prop where
  rest : KeepsRest before after
  front : SameFront (before.queued source mark.id) after
  consistent : after.Consistent source
  hidden : ∀ id, after.Hidden id ↔ before.Hidden id ∨ id ∈ Mark.veiled source [mark]

/-- Starting from a commit succeeds where it resolves, and tells the walk of it. -/
theorem markStart_told (id : ObjectId) (marked : walk.Marked source roots hidden)
    (faithful : graph.Faithful source) :
    ∃ after kept,
      markStart source id walk graph = ((source.node id).map fun _ => (), after, kept) ∧
      kept.Faithful source ∧ Told source (.start id) walk after := by
  obtain ⟨kept, answered, faithful⟩ := faithful.resolve id
  cases resolved : source.node id with
  | error fault =>
    refine ⟨walk, kept,
      by simp [markStart, whenConfigured, marked.phase, answered, resolved, Except.map], faithful,
      .refl walk, ?_, marked.consistent, fun other => ?_⟩
    · simp only [queued, Mark.id, resolved]
      exact .refl walk
    · simp [Mark.veiled, Mark.resolving, Mark.id, resolved, Except.isOk, Except.toBool]
  | ok node =>
    refine ⟨walk.discover node, kept,
      by simp [markStart, whenConfigured, marked.phase, answered, resolved, Except.map], faithful,
      discover_keeps, ?_, marked.consistent.discover (Source.node_of_id resolved), fun other => ?_⟩
    · simp only [queued, Mark.id, resolved]
      exact .refl _
    · rw [discover_hidden]
      simp [Mark.veiled, Mark.resolving, Mark.id, Mark.hidden, resolved, Except.isOk, Except.toBool]

/-- Hiding a commit succeeds where it resolves, and tells the walk of it.

Proof: nothing has been visited while marks are made, so that hiding ends at the commit itself. -/
theorem hide_told (id : ObjectId) (marked : walk.Marked source roots hidden)
    (faithful : graph.Faithful source) :
    ∃ after kept, hide source id walk graph = ((source.node id).map fun _ => (), after, kept) ∧
      kept.Faithful source ∧ Told source (.hide id) walk after := by
  obtain ⟨between, answered, stillFaithful⟩ := faithful.resolve id
  cases resolved : source.node id with
  | error fault =>
    refine ⟨walk, between,
      by simp [hide, whenConfigured, marked.phase, answered, resolved, Except.map], stillFaithful,
      .refl walk, ?_, marked.consistent, fun other => ?_⟩
    · simp only [queued, Mark.id, resolved]
      exact .refl walk
    · simp [Mark.veiled, Mark.resolving, Mark.id, resolved, Except.isOk, Except.toBool]
  | ok node =>
    obtain ⟨veiled, kept, ran, spreads, consistent, faithful⟩ :=
      carryHidden_hides id marked.consistent stillFaithful
    refine ⟨veiled.discover node, kept,
      by simp [hide, whenConfigured, marked.phase, answered, resolved, ran, Except.map], faithful,
      spreads.rest.trans discover_keeps, ?_, consistent.discover (Source.node_of_id resolved),
      fun other => ?_⟩
    · simp only [queued, Mark.id, resolved]
      exact spreads.front.discover node
    · have only : other ∈ Mark.veiled source [.hide id] ↔ other = id := by
        simp [Mark.veiled, Mark.resolving, Mark.id, Mark.hidden, resolved, Except.isOk,
          Except.toBool]
      rw [discover_hidden, only]
      constructor
      · intro veiled
        refine (spreads.sound other veiled).imp_right fun led => ?_
        exact List.mem_singleton.mp ((Source.leads_none marked.unvisited other).mp led)
      · rintro (veiled | rfl)
        · exact spreads.grown other veiled
        · exact spreads.rooted other List.mem_cons_self

/-- Every mark does so, and it succeeds where its commit resolves. -/
theorem action_told (mark : Mark) (marked : walk.Marked source roots hidden)
    (faithful : graph.Faithful source) :
    ∃ after kept,
      mark.action source walk graph = ((source.node mark.id).map fun _ => (), after, kept) ∧
      kept.Faithful source ∧ Told source mark walk after := by
  cases mark with
  | start id => exact markStart_told id marked faithful
  | hide id => exact hide_told id marked faithful

/-- A marked commit joins the roots if it resolves. -/
theorem Told.marked {mark : Mark} {after : Walk} (told : Told source mark walk after)
    (marked : walk.Marked source roots hidden) :
    after.Marked source (roots ++ Mark.roots source [mark])
      (hidden ++ Mark.veiled source [mark]) := by
  refine ⟨told.consistent, told.rest.phase.trans marked.phase, fun id visited => ?_,
    fun id => ?_, fun id => ?_⟩
  · have before := (told.front.visited id).mpr visited
    cases resolved : source.node mark.id <;> simp only [queued, resolved] at before
    · exact marked.unvisited id before
    · exact marked.unvisited id ((discover_visited id).mp before)
  · rw [← told.front.discovered, List.mem_append, ← marked.discovered]
    cases resolved : source.node mark.id with
    | error fault =>
      simp [queued, Mark.roots, Mark.resolving, resolved, Except.isOk, Except.toBool]
    | ok node =>
      simp only [queued, resolved]
      rw [discover_discovered, Source.id_of_node resolved]
      simp [Mark.roots, Mark.resolving, resolved, Except.isOk, Except.toBool]
  · rw [told.hidden, List.mem_append, marked.hidden]

/-- A walk is told one thing after another. -/
inductive Tells (source : Source) : List Mark → Walk → Walk → Prop where
  | nothing (walk : Walk) : Tells source [] walk walk
  | more {mark : Mark} {rest : List Mark} {walk between after : Walk}
      (told : Told source mark walk between) (tells : Tells source rest between after) :
      Tells source (mark :: rest) walk after

variable {marks others : List Mark} {after : Walk}

/-- After all marks the roots are the marked commits that resolve. -/
theorem Tells.marked (tells : Tells source marks walk after)
    (marked : walk.Marked source roots hidden) :
    after.Marked source (roots ++ Mark.roots source marks)
      (hidden ++ Mark.veiled source marks) := by
  induction tells generalizing roots hidden with
  | nothing walk => simpa [Mark.roots, Mark.veiled, Mark.resolving] using marked
  | more told tells inductionHypothesis =>
    rw [Mark.roots_cons, Mark.veiled_cons, ← List.append_assoc, ← List.append_assoc]
    exact inductionHypothesis (told.marked marked)

/-- Marks change no setting. -/
theorem Tells.rest (tells : Tells source marks walk after) : KeepsRest walk after := by
  induction tells with
  | nothing walk => exact .refl walk
  | more told tells inductionHypothesis => exact told.rest.trans inductionHypothesis

/-- Two walks with the same front that are told of the same commits have the same front
again, whichever of the commits are to be hidden. -/
theorem Tells.front {left right nextLeft nextRight : Walk}
    (first : Tells source marks left nextLeft) (second : Tells source others right nextRight)
    (commits : marks.map Mark.id = others.map Mark.id) (same : SameFront left right) :
    SameFront nextLeft nextRight := by
  induction first generalizing others right with
  | nothing walk =>
    obtain rfl : others = [] := List.map_eq_nil_iff.mp commits.symm
    cases second
    exact same
  | @more mark rest left between after toldLeft tells inductionHypothesis =>
    cases second with
    | nothing => cases commits
    | @more other others _ middle _ toldRight tells =>
      obtain ⟨sameId, sameRest⟩ := List.cons.inj commits
      have queues : SameFront (left.queued source mark.id) (right.queued source other.id) := by
        rw [← sameId]
        cases resolved : source.node mark.id with
        | error fault => simpa only [queued, resolved] using same
        | ok node => simpa only [queued, resolved] using same.discover node
      exact inductionHypothesis tells sameRest
        ((toldLeft.front.symm.trans queues).trans toldRight.front)

/-- What is told in two parts is told. -/
theorem Tells.append {between : Walk} (first : Tells source marks walk between)
    (second : Tells source others between after) : Tells source (marks ++ others) walk after := by
  induction first with
  | nothing walk => exact second
  | more told tells inductionHypothesis => exact .more told (inductionHypothesis second)

/-- Marking all tells a walk all. -/
theorem markAll_tells (marks : List Mark) (marked : walk.Marked source roots hidden)
    (faithful : graph.Faithful source) :
    Tells source marks walk (markAll source marks walk graph).1 ∧
      (markAll source marks walk graph).2.Faithful source := by
  induction marks generalizing walk graph roots hidden with
  | nil => exact ⟨.nothing walk, faithful⟩
  | cons mark rest inductionHypothesis =>
    obtain ⟨after, kept, ran, faithful, told⟩ := action_told mark marked faithful
    obtain ⟨tells, faithful⟩ := inductionHypothesis (told.marked marked) faithful
    simp only [markAll, ran]
    exact ⟨.more told tells, faithful⟩

/-- A new walk that was told something. -/
theorem Tells.started (tells : Tells source marks {} walk) :
    walk.Marked source (Mark.roots source marks) (Mark.veiled source marks) :=
  tells.marked (marked_new source .everything {})

end Walk

end Ancestry
