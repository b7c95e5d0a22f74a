import Ancestry.Proofs.Walk.Hiding

/-!
# Visiting commits

A visit opens the first commit of the queue and meets its parents. Which parents join the
queue depends on the queue and on what was discovered before, not on what is hidden: two
walks with the same queue go on with the same queue. A visit fails before its commit is
judged only if some parent does not resolve.

Between visits the marks are exact. A commit is discovered if the roots lead to it
through visited commits, and it is hidden if the hidden roots do.
-/

namespace Ancestry.Walk

variable {source : Source} {walk : Walk} {graph : Graph}

/-- Discovered commits, as a test. -/
def knows (walk : Walk) (id : ObjectId) : Bool := (walk.marksOf id).discovered

/-- Walks with one front know the same commits. -/
theorem SameFront.knows {left right : Walk} (same : SameFront left right) :
    left.knows = right.knows := by
  funext id
  exact Bool.eq_iff_iff.mpr (same.discovered id)

/-- The queue after some commits were met: each that is new joins it if it resolves. -/
def enlist (source : Source) :
    List ObjectId → (known : ObjectId → Bool) → List Node → Except Fault (List Node)
  | [], _, queue => .ok queue
  | id :: rest, known, queue =>
    if known id then enlist source rest known queue
    else
      match source.node id with
      | .error fault => .error fault
      | .ok node => enlist source rest (fun other => known other || other = id) (enqueue node queue)

/-- Meeting commits fails at one that does not resolve. -/
theorem enlist_fault (ids : List ObjectId) (known : ObjectId → Bool) (queue : List Node)
    (fault : Fault) (failed : enlist source ids known queue = .error fault) :
    ∃ id ∈ ids, source.node id = .error fault := by
  induction ids generalizing known queue with
  | nil => cases failed
  | cons id rest inductionHypothesis =>
    by_cases old : known id
    · rw [enlist, if_pos old] at failed
      obtain ⟨other, member, unresolved⟩ := inductionHypothesis known queue failed
      exact ⟨other, List.mem_cons_of_mem id member, unresolved⟩
    · cases resolved : source.node id with
      | error reason =>
        rw [enlist, if_neg old, resolved] at failed
        cases failed
        exact ⟨id, List.mem_cons_self, resolved⟩
      | ok node =>
        rw [enlist, if_neg old, resolved] at failed
        obtain ⟨other, member, unresolved⟩ := inductionHypothesis _ _ failed
        exact ⟨other, List.mem_cons_of_mem id member, unresolved⟩

/-- The rest of the commits find the queue that the first one leaves. -/
theorem enlist_cons (id : ObjectId) (rest : List ObjectId) (known : ObjectId → Bool)
    (queue : List Node) :
    enlist source (id :: rest) known queue =
      match enlist source [id] known queue with
      | .error fault => .error fault
      | .ok longer => enlist source rest (fun other => known other || other = id) longer := by
  by_cases old : known id
  · have same : (fun other => known other || other = id) = known := by
      funext other
      by_cases equal : other = id <;> simp [equal, old]
    simp [enlist, old, same]
  · cases resolved : source.node id <;> simp [enlist, old, resolved]

/-- Met commits are discovered, and if the visited commit is hidden so are they. -/
structure Meets (source : Source) (hidden : Bool) (parents : List ObjectId) (before after : Walk) :
    Prop extends HiddenGrows source (if hidden then parents else []) before after where
  discovered : ∀ id, after.Discovered id ↔ before.Discovered id ∨ id ∈ parents

/-- Without parents nothing is met. -/
theorem Meets.refl (hidden : Bool) (walk : Walk) : Meets source hidden [] walk walk :=
  ⟨by cases hidden <;> exact .refl walk, by simp⟩

/-- The first parent is met, and then the rest. -/
theorem Meets.cons {hidden : Bool} {parent : ObjectId} {rest : List ObjectId}
    {before between after : Walk} (early : Meets source hidden [parent] before between)
    (late : Meets source hidden rest between after) :
    Meets source hidden (parent :: rest) before after := by
  constructor
  · have both := early.toHiddenGrows.trans late.toHiddenGrows
    cases hidden
    · exact both
    · exact both
  · intro id
    rw [late.discovered, early.discovered, List.mem_singleton, List.mem_cons, or_assoc]

/-- What meeting commits gives: the walk stays consistent, its queue is as `enlist` says,
and where it succeeds all of them are met. -/
def Meeting (source : Source) (hidden : Bool) (parents : List ObjectId) (action : Action Unit) :
    Prop :=
  ∀ walk graph, walk.Consistent source → graph.Faithful source →
    ∃ result after kept, action walk graph = (result, after, kept) ∧ after.Consistent source ∧
      kept.Faithful source ∧ KeepsRest walk after ∧
      (enlist source parents walk.knows walk.pending = result.map fun _ => after.pending) ∧
      (result = .ok () → Meets source hidden parents walk after)

/-- Hiding a parent of a hidden commit, or doing nothing for a parent of another. -/
theorem hide_parent (hidden : Bool) (parent : ObjectId) (consistent : walk.Consistent source)
    (faithful : graph.Faithful source) :
    ∃ after kept,
      (if hidden then carryHidden source parent walk graph else (.ok (), walk, graph)) =
        (.ok (), after, kept) ∧
      Spreads source (if hidden then [parent] else []) walk after ∧ after.Consistent source ∧
      kept.Faithful source := by
  cases hidden with
  | false => exact ⟨walk, graph, rfl, .refl walk, consistent, faithful⟩
  | true => exact carryHidden_hides parent consistent faithful

/-- Meeting one parent. -/
theorem meetParent_meets (hidden : Bool) (parent : ObjectId) :
    Meeting source hidden [parent] (meetParent source hidden parent) := by
  intro walk graph consistent faithful
  obtain ⟨between, kept, ran, spread, consistent, faithful⟩ :=
    hide_parent hidden parent consistent faithful
  have sameQueue : between.pending = walk.pending := spread.front.pending.symm
  have sameKnown : between.knows = walk.knows := spread.front.symm.knows
  by_cases known : (between.marksOf parent).discovered = true
  · refine ⟨.ok (), between, kept, by simp [meetParent, ran, known], consistent, faithful,
      spread.rest, ?_, fun _ => ⟨spread.toHiddenGrows, fun id => ?_⟩⟩
    · have old : walk.knows parent = true := sameKnown ▸ known
      simp [enlist, old, sameQueue, Except.map]
    · rw [← spread.front.discovered, List.mem_singleton]
      refine ⟨Or.inl, fun either => either.elim (fun old => old) ?_⟩
      rintro rfl
      exact (spread.front.discovered id).mpr known
  · obtain ⟨last, answered, stillFaithful⟩ := faithful.resolve parent
    have new : walk.knows parent = false := by
      rw [← sameKnown]
      exact Bool.not_eq_true _ ▸ known
    cases resolved : source.node parent with
    | error fault =>
      refine ⟨.error fault, between, last, by simp [meetParent, ran, known, answered, resolved],
        consistent, stillFaithful, spread.rest, by simp [enlist, new, resolved, Except.map], ?_⟩
      intro impossible
      cases impossible
    | ok node =>
      have named : node.id = parent := Source.id_of_node resolved
      refine ⟨.ok (), between.discover node, last,
        by simp [meetParent, ran, known, answered, resolved],
        consistent.discover (Source.node_of_id resolved), stillFaithful,
        spread.rest.trans discover_keeps, ?_, fun _ => ⟨?_, fun id => ?_⟩⟩
      · rw [pending_discover (named ▸ known)]
        simp [enlist, new, resolved, sameQueue, Except.map]
      · have settled : HiddenGrows source [] between (between.discover node) :=
          ⟨discover_visited, fun id => (discover_hidden id).mpr, by simp,
            fun child _ hides absent => absurd ((discover_hidden child).mp hides) absent,
            fun id hides => .inl ((discover_hidden id).mp hides)⟩
        simpa using spread.toHiddenGrows.trans settled
      · rw [discover_discovered, ← spread.front.discovered, named, List.mem_singleton]

/-- Meeting parents one by one. A parent that was met changes what the others find, which
is why the queue of the rest is computed from the walk after it. -/
theorem eachOf_meets (hidden : Bool) (parents : List ObjectId) :
    Meeting source hidden parents (eachOf (meetParent source hidden) parents) := by
  induction parents with
  | nil =>
    intro walk graph consistent faithful
    exact ⟨.ok (), walk, graph, rfl, consistent, faithful, .refl walk, rfl,
      fun _ => .refl hidden walk⟩
  | cons parent rest inductionHypothesis =>
    intro walk graph consistent faithful
    obtain ⟨result, between, kept, ran, consistent, faithful, unchanged, queue, met⟩ :=
      meetParent_meets hidden parent walk graph consistent faithful
    cases result with
    | error fault =>
      refine ⟨.error fault, between, kept, by simp [eachOf, ran], consistent, faithful,
        unchanged, ?_,
        fun impossible => by cases impossible⟩
      rw [enlist_cons, queue]
      rfl
    | ok done =>
      have first := met rfl
      have known : (fun other => walk.knows other || other = parent) = between.knows := by
        funext other
        rw [Bool.eq_iff_iff, Bool.or_eq_true, decide_eq_true_eq]
        exact ((first.discovered other).trans (or_congr_right List.mem_singleton)).symm
      obtain ⟨result, after, last, finished, consistent, faithful, stillUnchanged, stillQueue,
        metRest⟩ :=
        inductionHypothesis between kept consistent faithful
      refine ⟨result, after, last, by simp [eachOf, ran, finished], consistent, faithful,
        unchanged.trans stillUnchanged, ?_, fun succeeded => first.cons (metRest succeeded)⟩
      rw [enlist_cons, queue, known]
      exact stillQueue

/-- The marks are exact: the roots lead to what is discovered, and the hidden roots to
what is hidden, both through visited commits. -/
structure Exact (source : Source) (roots hidden : List ObjectId) (walk : Walk) : Prop where
  discovered : ∀ id, walk.Discovered id ↔ source.Leads walk.Visited roots id
  hidden : ∀ id, walk.Hidden id ↔ source.Leads walk.Visited hidden id

/-- Exactness depends only on the three marks. -/
theorem Exact.congr {roots hidden : List ObjectId} {left right : Walk}
    (exactness : left.Exact source roots hidden) (same : SameState left right) :
    right.Exact source roots hidden := by
  constructor
  · intro id
    rw [← same.discovered, exactness.discovered]
    exact Source.leads_congr same.visited id
  · intro id
    rw [← same.hidden, exactness.hidden]
    exact Source.leads_congr same.visited id

/-- A walk between visits. -/
structure Settled (source : Source) (roots hidden : List ObjectId) (walk : Walk) : Prop where
  consistent : walk.Consistent source
  exact : walk.Exact source roots hidden

/-- A walk in the same state is settled in the same way. -/
theorem Settled.congr {roots hidden : List ObjectId} {other : Walk}
    (settled : walk.Settled source roots hidden) (same : SameState walk other) :
    other.Settled source roots hidden :=
  ⟨settled.consistent.congr same, settled.exact.congr same⟩

section expand

variable {node : Node} {rest : List Node}

/-- What a walk is after the parents of its first node were met. -/
structure Expands (source : Source) (node : Node) (before after : Walk) : Prop where
  visited : ∀ id, after.Visited id ↔ before.Visited id ∨ id = node.id
  discovered : ∀ id, after.Discovered id ↔ before.Discovered id ∨ id ∈ node.parents
  shown : ¬ before.Hidden node.id → ∀ id, after.Hidden id ↔ before.Hidden id
  hidden : before.Hidden node.id →
    HiddenGrows source node.parents (before.opened node) after

/-- The parents of the first node are met: either one of them does not resolve, or the
queue grows by those that are new. -/
theorem expand_expands (consistent : walk.Consistent source) (faithful : graph.Faithful source)
    (first : walk.pending = node :: rest) :
    ∃ result after kept,
      expand source node (walk.marksOf node.id).uninteresting
        (walk.dequeue (walk.marksOf node.id).uninteresting) graph = (result, after, kept) ∧
      after.Consistent source ∧ kept.Faithful source ∧ KeepsRest walk after ∧
      (enlist source node.parents walk.knows rest = result.map fun _ => after.pending) ∧
      (result = .ok () → Expands source node walk after) := by
  obtain ⟨result, after, kept, ran, settled, faithful, unchanged, queue, met⟩ :=
    eachOf_meets (walk.marksOf node.id).uninteresting node.parents (walk.opened node) graph
      (consistent.opened first) faithful
  have known : (walk.opened node).knows = walk.knows := by
    funext id
    exact Bool.eq_iff_iff.mpr (opened_discovered id)
  have remaining : (walk.opened node).pending = rest := by
    simp [Walk.opened, dequeue, first]
  rw [known, remaining] at queue
  refine ⟨result, after, kept, ran, settled, faithful, opened_keeps.trans unchanged, queue,
    fun succeeded => ?_⟩
  have all := met succeeded
  refine ⟨fun id => (all.visited id).trans (opened_visited id), fun id => ?_, fun absent id => ?_,
    fun hidden => ?_⟩
  · rw [all.discovered, opened_discovered]
  · have grows := all.toHiddenGrows
    have shown : (walk.marksOf node.id).uninteresting = false := Bool.not_eq_true _ ▸ absent
    rw [shown] at grows
    rw [grows.hidden_iff, opened_hidden]
  · have grows := all.toHiddenGrows
    have marked : (walk.marksOf node.id).uninteresting = true := hidden
    rwa [marked] at grows

variable {roots hidden : List ObjectId} {after : Walk}

/-- A path through visited commits stays one. -/
theorem Expands.leads (expands : Expands source node walk after) {id : ObjectId}
    (led : source.Leads walk.Visited roots id) : source.Leads after.Visited roots id :=
  Source.leads_mono (fun id visited => (expands.visited id).mpr (.inl visited))
    (fun _ member => member) led

/-- A path to the visited commit goes on to its parents. -/
theorem Expands.leads_parent (expands : Expands source node walk after)
    (resolved : source.node node.id = .ok node) (led : source.Leads walk.Visited roots node.id)
    {parent : ObjectId} (member : parent ∈ node.parents) :
    source.Leads after.Visited roots parent :=
  Source.leads_step (expands.leads led) ((expands.visited node.id).mpr (.inr rfl))
    ((Source.parent_iff resolved).mpr member)

/-- The roots lead to what was discovered and to the parents, and to nothing else. -/
theorem Expands.discovered_iff (expands : Expands source node walk after)
    (consistent : walk.Consistent source) (exactness : walk.Exact source roots hidden)
    (first : walk.pending = node :: rest) (id : ObjectId) :
    after.Discovered id ↔ source.Leads after.Visited roots id := by
  have resolved := consistent.resolved node (by simp [first])
  have waiting : walk.Discovered node.id :=
    ((consistent.queued node.id).mp (by simp [first])).1
  rw [expands.discovered]
  constructor
  · rintro (old | met)
    · exact expands.leads ((exactness.discovered id).mp old)
    · exact expands.leads_parent resolved ((exactness.discovered node.id).mp waiting) met
  · refine Source.leads_least (fun id => walk.Discovered id ∨ id ∈ node.parents) ?_ ?_
    · intro root member
      exact .inl ((exactness.discovered root).mpr (Source.leads_root member))
    · intro child parent _ passed step
      rcases (expands.visited child).mp passed with visited | rfl
      · refine .inl ((exactness.discovered parent).mpr (Source.leads_step ?_ visited step))
        exact (exactness.discovered child).mp (consistent.entered child visited).1
      · exact .inr ((Source.parent_iff resolved).mp step)

/-- After a visit to a hidden commit its parents are hidden with what they lead to. -/
theorem Expands.veiled_iff (expands : Expands source node walk after)
    (resolved : source.node node.id = .ok node) (exactness : walk.Exact source roots hidden)
    (veiled : walk.Hidden node.id) (id : ObjectId) :
    after.Hidden id ↔ source.Leads after.Visited hidden id := by
  have grows := expands.hidden veiled
  have kept : ∀ other, walk.Hidden other → after.Hidden other := fun other old =>
    grows.grown other ((opened_hidden other).mpr old)
  constructor
  · intro hides
    rcases grows.sound id hides with old | led
    · exact expands.leads ((exactness.hidden id).mp ((opened_hidden id).mp old))
    · refine Source.leads_trans (fun parent member => ?_)
        (Source.leads_mono (fun other => (grows.visited other).mpr) (fun _ inside => inside) led)
      exact expands.leads_parent resolved ((exactness.hidden node.id).mp veiled) member
  · refine Source.leads_least after.Hidden (fun root member => ?_) ?_
    · exact kept root ((exactness.hidden root).mpr (Source.leads_root member))
    · intro child parent hides passed step
      rcases (expands.visited child).mp passed with visited | rfl
      · by_cases old : walk.Hidden child
        · have led := (exactness.hidden child).mp old
          exact kept parent ((exactness.hidden parent).mpr (Source.leads_step led visited step))
        · have new : ¬ (walk.opened node).Hidden child := fun hides =>
            old ((opened_hidden child).mp hides)
          have before : (walk.opened node).Visited child :=
            (opened_visited child).mpr (.inl visited)
          exact grows.closed child parent hides new before step
      · exact grows.rooted parent ((Source.parent_iff resolved).mp step)

/-- A visit to a commit that is not hidden hides nothing, and no path from the hidden
roots leads through it. -/
theorem Expands.shown_iff (expands : Expands source node walk after)
    (exactness : walk.Exact source roots hidden) (visible : ¬ walk.Hidden node.id)
    (id : ObjectId) : after.Hidden id ↔ source.Leads after.Visited hidden id := by
  rw [expands.shown visible]
  constructor
  · intro old
    exact expands.leads ((exactness.hidden id).mp old)
  · refine Source.leads_least walk.Hidden (fun root member => ?_) ?_
    · exact (exactness.hidden root).mpr (Source.leads_root member)
    · intro child parent hides passed step
      rcases (expands.visited child).mp passed with visited | rfl
      · have led := (exactness.hidden child).mp hides
        exact (exactness.hidden parent).mpr (Source.leads_step led visited step)
      · exact absurd hides visible

/-- Visiting a commit keeps the marks exact. The new paths are those through the visited
commit; where it is hidden, exactly its parents become hidden with what they lead to. -/
theorem Expands.exact (expands : Expands source node walk after)
    (consistent : walk.Consistent source) (exactness : walk.Exact source roots hidden)
    (first : walk.pending = node :: rest) : after.Exact source roots hidden := by
  refine ⟨expands.discovered_iff consistent exactness first, ?_⟩
  by_cases veiled : walk.Hidden node.id
  · have resolved := consistent.resolved node (by simp [first])
    exact expands.veiled_iff resolved exactness veiled
  · exact expands.shown_iff exactness veiled

end expand

end Ancestry.Walk
