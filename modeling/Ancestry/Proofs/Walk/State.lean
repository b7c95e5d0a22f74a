import Ancestry.Proofs.History
import Ancestry.Walk.Run

/-!
# Consistent states of a walk

Three marks steer a walk: a commit is discovered, visited or hidden. The queue holds
exactly the commits that are discovered and not visited, each once and latest first, and
the counter is the number of those that are not hidden. Discovering, hiding and opening
a commit keep this. Nothing here depends on what the filter decides.
-/

namespace Ancestry.Walk

/-- The commit has been queued. -/
def Discovered (walk : Walk) (id : ObjectId) : Prop := (walk.marksOf id).discovered = true

/-- The commit has left the queue. -/
def Visited (walk : Walk) (id : ObjectId) : Prop := (walk.marksOf id).headerRead = true

/-- The commit is hidden. -/
def Hidden (walk : Walk) (id : ObjectId) : Prop := (walk.marksOf id).uninteresting = true

/-- The node is not hidden, as a test. -/
def shows (walk : Walk) (node : Node) : Bool := !(walk.marksOf node.id).uninteresting

/-- A node is shown where its commit is not hidden. -/
theorem shows_iff (walk : Walk) (node : Node) : walk.shows node = true ↔ ¬ walk.Hidden node.id := by
  simp [shows, Hidden]

/-- Where the same commits are hidden the same nodes are shown. -/
theorem shows_congr {left right : Walk} (same : ∀ id, left.Hidden id ↔ right.Hidden id) :
    left.shows = right.shows := by
  funext node
  rw [Bool.eq_iff_iff, shows_iff, shows_iff, same]

/-- A change of one commit's marks is seen at that commit and nowhere else. -/
@[simp] theorem marksOf_mark (walk : Walk) (id other : ObjectId) (change : Marks → Marks) :
    (walk.mark id change).marksOf other =
      if other = id then change (walk.marksOf id) else walk.marksOf other := by
  simp only [mark, marksOf, Std.TreeMap.getD_insert, Std.LawfulEqCmp.compare_eq_iff_eq]
  by_cases same : id = other
  · simp [same]
  · rw [if_neg same, if_neg fun equal => same equal.symm]

/-- Marks are no part of the queue. -/
@[simp] theorem pending_mark (walk : Walk) (id : ObjectId) (change : Marks → Marks) :
    (walk.mark id change).pending = walk.pending := rfl

/-- Marks are no part of the counter. -/
@[simp] theorem interesting_mark (walk : Walk) (id : ObjectId) (change : Marks → Marks) :
    (walk.mark id change).interesting = walk.interesting := rfl

/-- The settings of a pass and what it has kept for giving out. -/
structure SamePass (left right : Walk) : Prop where
  order : right.order = left.order
  phase : right.phase = left.phase
  output : right.output = left.output

/-- A walk is in the pass that it is in. -/
theorem SamePass.refl (walk : Walk) : SamePass walk walk := ⟨rfl, rfl, rfl⟩

/-- Two steps that stay in a pass stay in it together. -/
theorem SamePass.trans {left middle right : Walk} (first : SamePass left middle)
    (second : SamePass middle right) : SamePass left right :=
  ⟨second.order.trans first.order, second.phase.trans first.phase, second.output.trans first.output⟩

/-- What a traversal leaves alone: the pass, the filter and the marks that do not steer. -/
structure KeepsRest (before after : Walk) : Prop extends SamePass before after where
  filter : after.filter = before.filter
  emitted : ∀ id, (after.marksOf id).emitted = (before.marksOf id).emitted
  bodyRead : ∀ id, (after.marksOf id).bodyRead = (before.marksOf id).bodyRead
  delayed : ∀ id, (after.marksOf id).delayed = (before.marksOf id).delayed

/-- A walk that is not touched keeps everything. -/
theorem KeepsRest.refl (walk : Walk) : KeepsRest walk walk :=
  ⟨.refl walk, rfl, fun _ => rfl, fun _ => rfl, fun _ => rfl⟩

/-- What each of two steps leaves alone both of them leave alone. -/
theorem KeepsRest.trans {before between after : Walk} (first : KeepsRest before between)
    (second : KeepsRest between after) : KeepsRest before after where
  toSamePass := first.toSamePass.trans second.toSamePass
  filter := second.filter.trans first.filter
  emitted id := (second.emitted id).trans (first.emitted id)
  bodyRead id := (second.bodyRead id).trans (first.bodyRead id)
  delayed id := (second.delayed id).trans (first.delayed id)

/-- A change of one commit's steering marks leaves the rest alone. -/
theorem KeepsRest.of_marks {before after : Walk} (id : ObjectId) (change : Marks → Marks)
    (marks : ∀ other, after.marksOf other =
      if other = id then change (before.marksOf id) else before.marksOf other)
    (steady : ∀ marks, (change marks).emitted = marks.emitted ∧
      (change marks).bodyRead = marks.bodyRead ∧ (change marks).delayed = marks.delayed)
    (pass : SamePass before after) (filter : after.filter = before.filter) :
    KeepsRest before after := by
  refine ⟨pass, filter, fun other => ?_, fun other => ?_, fun other => ?_⟩
  all_goals
    rw [marks]
    by_cases same : other = id <;> simp [same, steady]

/-- Queue and marks that decide which commits are visited from here on. -/
structure SameFront (left right : Walk) : Prop where
  pending : left.pending = right.pending
  discovered : ∀ id, left.Discovered id ↔ right.Discovered id
  visited : ∀ id, left.Visited id ↔ right.Visited id

/-- A walk has the front that it has. -/
theorem SameFront.refl (walk : Walk) : SameFront walk walk :=
  ⟨rfl, fun _ => .rfl, fun _ => .rfl⟩

/-- Which of two walks with one front comes first does not matter. -/
theorem SameFront.symm {left right : Walk} (same : SameFront left right) :
    SameFront right left :=
  ⟨same.pending.symm, fun id => (same.discovered id).symm, fun id => (same.visited id).symm⟩

/-- Walks that each have the front of a third have one front. -/
theorem SameFront.trans {left middle right : Walk} (first : SameFront left middle)
    (second : SameFront middle right) : SameFront left right :=
  ⟨first.pending.trans second.pending, fun id => (first.discovered id).trans (second.discovered id),
    fun id => (first.visited id).trans (second.visited id)⟩

/-- Everything that decides how a traversal goes on: the front, what is hidden, and the
counter. -/
structure SameState (left right : Walk) : Prop extends SameFront left right where
  hidden : ∀ id, left.Hidden id ↔ right.Hidden id
  interesting : left.interesting = right.interesting

/-- A walk is in the state that it is in. -/
theorem SameState.refl (walk : Walk) : SameState walk walk := ⟨.refl walk, fun _ => .rfl, rfl⟩

/-- Which of two walks in one state comes first does not matter. -/
theorem SameState.symm {left right : Walk} (same : SameState left right) : SameState right left :=
  ⟨same.toSameFront.symm, fun id => (same.hidden id).symm, same.interesting.symm⟩

/-- Walks that are each in the state of a third are in one state. -/
theorem SameState.trans {left middle right : Walk} (first : SameState left middle)
    (second : SameState middle right) : SameState left right :=
  ⟨first.toSameFront.trans second.toSameFront,
    fun id => (first.hidden id).trans (second.hidden id),
    first.interesting.trans second.interesting⟩

/-- A mark that does not steer can be set anywhere. -/
theorem mark_state (walk : Walk) (id : ObjectId) (change : Marks → Marks)
    (steady : ∀ marks, (change marks).discovered = marks.discovered ∧
      (change marks).headerRead = marks.headerRead ∧
      (change marks).uninteresting = marks.uninteresting) :
    SameState walk (walk.mark id change) := by
  refine ⟨⟨rfl, fun other => ?_, fun other => ?_⟩, fun other => ?_, rfl⟩
  all_goals
    simp only [Discovered, Visited, Hidden, marksOf_mark]
    by_cases same : other = id <;> simp [same, steady]

/-- Queue, counter and marks agree with one another and with the source. -/
structure Consistent (source : Source) (walk : Walk) : Prop where
  queued : ∀ id, id ∈ walk.pending.map Node.id ↔ walk.Discovered id ∧ ¬ walk.Visited id
  distinct : (walk.pending.map Node.id).Nodup
  resolved : ∀ node ∈ walk.pending, source.node node.id = .ok node
  entered : ∀ id, walk.Visited id → walk.Discovered id ∧ source.Resolves id
  counted : walk.interesting = walk.pending.countP walk.shows
  sorted : walk.pending.Pairwise fun earlier later => later.time ≤ earlier.time

/-- Consistency depends only on the queue, the counter and the three marks. -/
theorem Consistent.congr {source : Source} {left right : Walk} (consistent : left.Consistent source)
    (same : SameState left right) : right.Consistent source := by
  constructor
  · intro id
    rw [← same.pending, consistent.queued, same.discovered, same.visited]
  · exact same.pending ▸ consistent.distinct
  · exact same.pending ▸ consistent.resolved
  · intro id visited
    obtain ⟨discovered, resolves⟩ := consistent.entered id ((same.visited id).mpr visited)
    exact ⟨(same.discovered id).mp discovered, resolves⟩
  · rw [← same.interesting, ← same.pending, ← shows_congr same.hidden]
    exact consistent.counted
  · exact same.pending ▸ consistent.sorted

/-- Queueing only puts a node somewhere into the queue. -/
theorem enqueue_perm (node : Node) (queue : List Node) :
    (enqueue node queue).Perm (node :: queue) := by
  induction queue with
  | nil => exact .refl _
  | cons first rest inductionHypothesis =>
    by_cases later : first.time < node.time
    · simp [enqueue, later]
    · simp only [enqueue, later, if_false]
      exact (inductionHypothesis.cons first).trans (.swap node first rest)

/-- The latest node stays in front. -/
theorem enqueue_sorted (node : Node) (queue : List Node)
    (sorted : queue.Pairwise fun earlier later => later.time ≤ earlier.time) :
    (enqueue node queue).Pairwise fun earlier later => later.time ≤ earlier.time := by
  induction queue with
  | nil => simp [enqueue]
  | cons first rest inductionHypothesis =>
    obtain ⟨below, sortedRest⟩ := List.pairwise_cons.mp sorted
    by_cases later : first.time < node.time
    · simp only [enqueue, later, if_true, List.pairwise_cons]
      refine ⟨?_, below, sortedRest⟩
      intro other member
      rcases List.mem_cons.mp member with rfl | member
      · exact Int.le_of_lt later
      · exact Int.le_trans (below other member) (Int.le_of_lt later)
    · simp only [enqueue, later, if_false, List.pairwise_cons]
      refine ⟨?_, inductionHypothesis sortedRest⟩
      intro other member
      rcases List.mem_cons.mp ((enqueue_perm node rest).mem_iff.mp member) with rfl | member
      · exact Int.not_lt.mp later
      · exact below other member

section discover

variable {source : Source} {walk : Walk} {node : Node}

/-- A commit that was queued before is not queued again. -/
theorem discover_known (known : walk.Discovered node.id) : walk.discover node = walk := by
  simp [discover, show (walk.marksOf node.id).discovered = true from known]

/-- A new commit is queued by its time. -/
theorem pending_discover (new : ¬ walk.Discovered node.id) :
    (walk.discover node).pending = enqueue node walk.pending := by
  simp [discover, show ¬ (walk.marksOf node.id).discovered = true from new]

/-- Discovering sets one mark of one commit. -/
theorem marksOf_discover (id : ObjectId) :
    (walk.discover node).marksOf id =
      if id = node.id then { walk.marksOf node.id with discovered := true }
      else walk.marksOf id := by
  by_cases known : (walk.marksOf node.id).discovered = true
  · rw [discover_known known]
    split
    · rename_i same
      rw [same, ← known]
    · rfl
  · simp only [discover, known, Bool.false_eq_true, if_false]
    exact marksOf_mark walk node.id id ({ · with discovered := true })

/-- Discovering a node adds its commit to those that are discovered, and no other. -/
theorem discover_discovered (id : ObjectId) :
    (walk.discover node).Discovered id ↔ walk.Discovered id ∨ id = node.id := by
  rw [Discovered, marksOf_discover]
  by_cases same : id = node.id <;> simp [Discovered, same]

/-- To be discovered is not to be visited. -/
theorem discover_visited (id : ObjectId) :
    (walk.discover node).Visited id ↔ walk.Visited id := by
  rw [Visited, marksOf_discover]
  by_cases same : id = node.id <;> simp [Visited, same]

/-- To be discovered hides nothing and shows nothing. -/
theorem discover_hidden (id : ObjectId) : (walk.discover node).Hidden id ↔ walk.Hidden id := by
  rw [Hidden, marksOf_discover]
  by_cases same : id = node.id <;> simp [Hidden, same]

/-- Discovering touches the mark of discovery, the queue and the counter only. -/
theorem discover_keeps : KeepsRest walk (walk.discover node) := by
  by_cases known : (walk.marksOf node.id).discovered = true
  · rw [discover_known known]
    exact .refl walk
  · refine .of_marks node.id ({ · with discovered := true }) marksOf_discover
      (fun _ => ⟨rfl, rfl, rfl⟩) ⟨?_, ?_, ?_⟩ ?_
    all_goals simp [discover, known, mark]

/-- A new commit counts unless it is hidden already. -/
theorem interesting_discover (new : ¬ walk.Discovered node.id) :
    (walk.discover node).interesting =
      walk.interesting + if walk.shows node then 1 else 0 := by
  cases hidden : (walk.marksOf node.id).uninteresting <;>
    simp [discover, show ¬ (walk.marksOf node.id).discovered = true from new, shows, hidden]

/-- Discovering keeps a walk consistent: a new node joins queue and count together. -/
theorem Consistent.discover (consistent : walk.Consistent source)
    (resolved : source.node node.id = .ok node) : (walk.discover node).Consistent source := by
  by_cases known : walk.Discovered node.id
  · rwa [discover_known known]
  · have joined : (walk.discover node).pending.Perm (node :: walk.pending) :=
      pending_discover known ▸ enqueue_perm node walk.pending
    have absent : node.id ∉ walk.pending.map Node.id := fun member =>
      known ((consistent.queued node.id).mp member).1
    constructor
    · intro id
      have fresh : ¬ walk.Visited node.id := fun visited => known (consistent.entered _ visited).1
      rw [(joined.map Node.id).mem_iff, List.map_cons, List.mem_cons, consistent.queued,
        discover_discovered, discover_visited]
      constructor
      · rintro (rfl | ⟨discovered, unvisited⟩)
        · exact ⟨.inr rfl, fresh⟩
        · exact ⟨.inl discovered, unvisited⟩
      · rintro ⟨discovered | same, unvisited⟩
        · exact .inr ⟨discovered, unvisited⟩
        · exact .inl same
    · rw [(joined.map Node.id).nodup_iff]
      exact List.nodup_cons.mpr ⟨absent, consistent.distinct⟩
    · intro other member
      rcases List.mem_cons.mp (joined.mem_iff.mp member) with rfl | member
      · exact resolved
      · exact consistent.resolved other member
    · intro id visited
      rw [discover_visited] at visited
      obtain ⟨discovered, resolves⟩ := consistent.entered id visited
      exact ⟨(discover_discovered id).mpr (.inl discovered), resolves⟩
    · rw [interesting_discover known, joined.countP_eq, shows_congr discover_hidden,
        List.countP_cons, consistent.counted]
    · rw [pending_discover known]
      exact enqueue_sorted node walk.pending consistent.sorted

end discover

section opened

variable {source : Source} {walk : Walk} {node : Node} {rest : List Node}

/-- The first node has left the queue and counts as visited, before its parents are looked
at. -/
def opened (walk : Walk) (node : Node) : Walk :=
  (walk.dequeue (walk.marksOf node.id).uninteresting).mark node.id ({ · with headerRead := true })

/-- Of all marks the one that changes is that the header of the opened commit was read. -/
theorem marksOf_opened (id : ObjectId) :
    (walk.opened node).marksOf id =
      if id = node.id then { walk.marksOf node.id with headerRead := true }
      else walk.marksOf id :=
  marksOf_mark _ node.id id _

/-- Opening a commit discovers none. -/
theorem opened_discovered (id : ObjectId) :
    (walk.opened node).Discovered id ↔ walk.Discovered id := by
  rw [Discovered, marksOf_opened]
  by_cases same : id = node.id <;> simp [Discovered, same]

/-- The opened commit is visited, and of the others those that were. -/
theorem opened_visited (id : ObjectId) :
    (walk.opened node).Visited id ↔ walk.Visited id ∨ id = node.id := by
  rw [Visited, marksOf_opened]
  by_cases same : id = node.id <;> simp [Visited, same]

/-- Opening a commit hides nothing and shows nothing. -/
theorem opened_hidden (id : ObjectId) : (walk.opened node).Hidden id ↔ walk.Hidden id := by
  rw [Hidden, marksOf_opened]
  by_cases same : id = node.id <;> simp [Hidden, same]

/-- Opening touches the mark of the visit, the queue and the counter only. -/
theorem opened_keeps : KeepsRest walk (walk.opened node) :=
  .of_marks node.id ({ · with headerRead := true }) marksOf_opened (fun _ => ⟨rfl, rfl, rfl⟩)
    ⟨rfl, rfl, rfl⟩ rfl

/-- Opening the first node keeps a walk consistent: the node leaves queue and count
together, and its mark moves from discovered to visited. -/
theorem Consistent.opened (consistent : walk.Consistent source)
    (first : walk.pending = node :: rest) : (walk.opened node).Consistent source := by
  have queued := consistent.queued
  have distinct := consistent.distinct
  have counted := consistent.counted
  have sorted := consistent.sorted
  rw [first] at distinct counted sorted
  obtain ⟨absent, distinctRest⟩ := List.nodup_cons.mp (List.map_cons ▸ distinct)
  have remaining : (walk.opened node).pending = rest := by
    simp [Walk.opened, dequeue, first]
  have waiting : walk.Discovered node.id ∧ ¬ walk.Visited node.id :=
    (queued node.id).mp (by simp [first])
  constructor
  · intro id
    have member := queued id
    rw [first, List.map_cons, List.mem_cons] at member
    rw [remaining, opened_discovered, opened_visited]
    by_cases same : id = node.id
    · subst same
      simp [absent]
    · simpa [same] using member
  · rwa [remaining]
  · intro other member
    rw [remaining] at member
    exact consistent.resolved other (first ▸ List.mem_cons_of_mem node member)
  · intro id visited
    rw [opened_discovered]
    rcases (opened_visited id).mp visited with visited | rfl
    · exact consistent.entered id visited
    · exact ⟨waiting.1, node, consistent.resolved node (by simp [first])⟩
  · rw [remaining, shows_congr opened_hidden]
    rw [List.countP_cons] at counted
    cases hidden : (walk.marksOf node.id).uninteresting <;>
      simp [shows, hidden] at counted <;> simp [Walk.opened, dequeue, hidden, counted]
  · rw [remaining]
    exact (List.pairwise_cons.mp sorted).2

end opened

end Ancestry.Walk
