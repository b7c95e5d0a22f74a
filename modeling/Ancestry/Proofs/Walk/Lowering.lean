import Ancestry.Proofs.Walk.Unfinished

/-!
# Lowering the counter

The counter is lowered in two places: where a commit that is not hidden leaves the queue, and where
a commit that waits in the queue becomes hidden. It is never zero there. So it does not matter what
lowering does to a walk whose counter is zero: every operation does the same with any way of
lowering that takes one from a counter that is not zero. What lowering does otherwise may be
anything, such as choosing another order, which neither a failure nor the end of a pass takes back;
so no lowering stays unseen.
-/

namespace Ancestry.Walk

variable {α β : Type} {source : Source} {walk after : Walk} {graph kept : Graph} {node : Node}
  {rest : List Node} {lower : Walk → Walk}

section lowering

/-- The walk with one commit less on its counter. -/
def lowered (walk : Walk) : Walk := { walk with interesting := walk.interesting - 1 }

/-- Hides a commit that is not hidden, and the parents of one that was visited. -/
def hideFirstBy (lower : Walk → Walk) (source : Source) (parents : Node → Action Unit)
    (id : ObjectId) : Action Unit :=
  fun walk graph =>
    if (walk.marksOf id).uninteresting then (.ok (), walk, graph)
    else if (walk.marksOf id).headerRead then
      (fetch source id).andThen parents (walk.mark id ({ · with uninteresting := true })) graph
    else if (walk.marksOf id).discovered then
      (.ok (), lower (walk.mark id ({ · with uninteresting := true })), graph)
    else (.ok (), walk.mark id ({ · with uninteresting := true }), graph)

/-- Hides a commit, and what it leads to through visited commits at most `most` steps away. -/
def hideWithinBy (lower : Walk → Walk) (source : Source) : (most : Nat) → ObjectId → Action Unit
  | 0 => hideFirstBy lower source fun _ => .giving () id
  | most + 1 =>
    hideFirstBy lower source fun node =>
      eachOf (hideWithinBy lower source most) node.parents.reverse

/-- Hides a parent of a hidden commit. -/
def veilParentBy (lower : Walk → Walk) (source : Source) (hidden : Bool) (parent : ObjectId) :
    Action Unit :=
  fun walk graph =>
    if hidden then hideWithinBy lower source ObjectId.total parent walk graph
    else (.ok (), walk, graph)

/-- Looks at a parent of a visited commit. -/
def meetParentBy (lower : Walk → Walk) (source : Source) (hidden : Bool) (parent : ObjectId) :
    Action Unit :=
  (veilParentBy lower source hidden parent).andThen fun _ => welcome source parent

/-- The first node has left the queue and counts as visited. -/
def openedBy (lower : Walk → Walk) (walk : Walk) (node : Node) : Walk :=
  let left := { walk with pending := walk.pending.tail }
  Walk.mark (if (walk.marksOf node.id).uninteresting then left else lower left) node.id
    ({ · with headerRead := true })

/-- Visits the first pending node. -/
def visitBy (lower : Walk → Walk) (source : Source) (node : Node) : Action Verdict :=
  fun walk graph =>
    let hidden := (walk.marksOf node.id).uninteresting
    (eachOf (meetParentBy lower source hidden) node.parents).andThen
      (fun _ => settle source node hidden) (walk.openedBy lower node) graph

/-- Hides a commit and all that is reachable from it. -/
def hideBy (lower : Walk → Walk) (source : Source) (id : ObjectId) : Action Unit :=
  whenConfigured ((fetch source id).andThen fun node =>
    (hideWithinBy lower source ObjectId.total id).andThen fun _ => .giving () (discover · node))

/-- The search for the next commit by time. -/
def searchLowering (lower : Walk → Walk) (source : Source) : Action (Option Node) :=
  searchBy (visitBy lower source) ObjectId.total

/-- One operation and the reply to it, with any way of lowering the counter. -/
def performBy (lower : Walk → Walk) (source : Source) :
    Operation → Walk → Graph → Reply × Walk × Graph
  | .next, walk, graph =>
    match requestBy (searchLowering lower source) walk graph with
    | (result, walk, graph) => (.ofResult .commit result, walk, graph)
  | .set (.mark (.hide id)), walk, graph =>
    match hideBy lower source id walk graph with
    | (result, walk, graph) => (.ofResult (fun _ => .done) result, walk, graph)
  | operation, walk, graph => perform source operation walk graph

end lowering

section congruence

/-- Two operations in sequence come to the same where each of them does. -/
theorem Action.andThen_congr {first other : Action α} {next others : α → Action β}
    (same : other walk graph = first walk graph)
    (later : ∀ value after kept, first walk graph = (.ok value, after, kept) →
      others value after kept = next value after kept) :
    other.andThen others walk graph = first.andThen next walk graph := by
  simp only [Action.andThen, same]
  rcases ran : first walk graph with ⟨fault | value, after, kept⟩
  · rfl
  · exact later value after kept ran

/-- Steps that come to the same in states of some kind do so one after the other, where a step that
succeeds leaves a state of that kind. -/
theorem eachOf_congr {step other : ObjectId → Action Unit} (State : Walk → Graph → Prop)
    (same : ∀ id walk graph, State walk graph → other id walk graph = step id walk graph)
    (stays : ∀ id walk graph after kept, State walk graph →
      step id walk graph = (.ok (), after, kept) → State after kept)
    (ids : List ObjectId) (state : State walk graph) :
    eachOf other ids walk graph = eachOf step ids walk graph := by
  induction ids generalizing walk graph with
  | nil => rfl
  | cons id ids inductionHypothesis =>
    rw [eachOf_cons, eachOf_cons]
    apply Action.andThen_congr (same id walk graph state)
    intro _ after kept ran
    exact inductionHypothesis (stays id walk graph after kept state ran)

end congruence

/-- A commit that waits and is not hidden has been counted. -/
theorem Consistent.counts (consistent : walk.Consistent source) {id : ObjectId}
    (waiting : walk.Discovered id ∧ ¬ walk.Visited id) (shown : ¬ walk.Hidden id) :
    0 < walk.interesting := by
  obtain ⟨node, member, rfl⟩ := List.mem_map.mp ((consistent.queued id).mpr waiting)
  rw [consistent.counted, List.countP_pos_iff]
  exact ⟨node, member, (shows_iff walk node).mpr shown⟩

/-- Reading a commit changes no walk. -/
theorem of_fetch {id : ObjectId} (faithful : graph.Faithful source)
    (fetched : fetch source id walk graph = (.ok node, after, kept)) :
    after = walk ∧ kept.Faithful source := by
  obtain ⟨store, answered, stillFaithful⟩ := faithful.resolve id
  simp only [fetch, answered, Prod.mk.injEq] at fetched
  obtain ⟨_, rfl, rfl⟩ := fetched
  exact ⟨rfl, stillFaithful⟩

section same

variable (lowers : ∀ walk : Walk, 0 < walk.interesting → lower walk = walk.lowered)

include lowers

/-- Hiding one commit lowers the counter only where it is not zero. -/
theorem hideFirstBy_eq {parents : Node → Action Unit} (most : Nat) (id : ObjectId)
    (consistent : walk.Consistent source) (faithful : graph.Faithful source)
    (same : ∀ node store, walk.Visited id → ¬ walk.Hidden id → store.Faithful source →
      parents node (walk.hideOne id walk.interesting) store =
        hideParents source most node (walk.hideOne id walk.interesting) store) :
    hideFirstBy lower source parents id walk graph = hideWithin source most id walk graph := by
  rw [hideWithin_eq, hideFirstBy]
  by_cases hidden : (walk.marksOf id).uninteresting = true
  · rw [if_pos hidden, if_pos hidden]
  · rw [if_neg hidden, if_neg hidden]
    by_cases visited : (walk.marksOf id).headerRead = true
    · rw [if_pos visited, if_pos visited]
      apply Action.andThen_congr rfl
      intro node between store fetched
      obtain ⟨rfl, faithful⟩ := of_fetch faithful fetched
      exact same node store visited hidden faithful
    · rw [if_neg visited, if_neg visited]
      by_cases discovered : (walk.marksOf id).discovered = true
      · have counted := consistent.counts ⟨discovered, visited⟩ hidden
        have counted := lowers (walk.mark id ({ · with uninteresting := true })) counted
        rw [if_pos discovered, if_pos discovered, counted]
        rfl
      · rw [if_neg discovered, if_neg discovered]

/-- So does hiding what a commit leads to. The bound falls with every commit that is hidden on the
way, so that what is hidden next finds a state in step. -/
theorem hideWithinBy_eq (most : Nat) (id : ObjectId) (consistent : walk.Consistent source)
    (faithful : graph.Faithful source) (enough : ObjectId.unmarked walk.Hidden ≤ most) :
    hideWithinBy lower source most id walk graph = hideWithin source most id walk graph := by
  induction most generalizing walk graph id with
  | zero => exact hideFirstBy_eq lowers 0 id consistent faithful fun _ _ _ _ _ => rfl
  | succ most inductionHypothesis =>
    refine hideFirstBy_eq lowers (most + 1) id consistent faithful
      fun node store visited shown faithful => ?_
    have fewer := hideOne_fewer id walk.interesting shown
    have marked := consistent.hide_absent id fun waiting => waiting.2 visited
    refine eachOf_congr
      (fun walk graph => walk.Consistent source ∧ graph.Faithful source ∧
        ObjectId.unmarked walk.Hidden ≤ most) ?_ ?_ _ ⟨marked, faithful, by omega⟩
    · rintro id walk graph ⟨consistent, faithful, enough⟩
      exact inductionHypothesis id consistent faithful enough
    · rintro id walk graph after kept ⟨consistent, faithful, enough⟩ ran
      obtain ⟨_, _, again, spreads, consistent, faithful⟩ :=
        hideWithin_hides most id walk graph consistent faithful enough
      rw [ran] at again
      cases again
      exact ⟨consistent, faithful, (ObjectId.unmarked_mono _ _ spreads.grown).trans enough⟩

/-- Meeting the parents of a visited commit. -/
theorem meetParentBy_eq (hidden : Bool) (parents : List ObjectId)
    (consistent : walk.Consistent source) (faithful : graph.Faithful source) :
    eachOf (meetParentBy lower source hidden) parents walk graph =
      eachOf (meetParent source hidden) parents walk graph := by
  refine eachOf_congr (fun walk graph => walk.Consistent source ∧ graph.Faithful source) ?_ ?_ _
    ⟨consistent, faithful⟩
  · rintro parent walk graph ⟨consistent, faithful⟩
    rw [meetParentBy, meetParent_eq]
    refine Action.andThen_congr ?_ fun _ _ _ _ => rfl
    rw [veilParentBy, veilParent]
    cases hidden with
    | false => rfl
    | true =>
      exact hideWithinBy_eq lowers ObjectId.total parent consistent faithful
        (ObjectId.unmarked_le_total walk.Hidden)
  · rintro parent walk graph after kept ⟨consistent, faithful⟩ ran
    obtain ⟨_, _, _, again, consistent, faithful, _⟩ :=
      meetParent_meets hidden parent walk graph consistent faithful
    rw [ran] at again
    cases again
    exact ⟨consistent, faithful⟩

omit lowers in
/-- A visit meets the parents after the commit has left the queue. -/
theorem visit_opened (node : Node) (walk : Walk) (graph : Graph) :
    visit source node walk graph =
      (eachOf (meetParent source (walk.marksOf node.id).uninteresting) node.parents).andThen
        (fun _ => settle source node (walk.marksOf node.id).uninteresting) (walk.opened node)
        graph := by
  simp only [visit, expand, Action.andThen, settle, opened]
  rcases eachOf _ node.parents _ graph with ⟨fault | done, after, kept⟩ <;> rfl

/-- Visiting the first commit of the queue. -/
theorem visitBy_eq (consistent : walk.Consistent source) (faithful : graph.Faithful source)
    (first : walk.pending = node :: rest) :
    visitBy lower source node walk graph = visit source node walk graph := by
  have opened : walk.openedBy lower node = walk.opened node := by
    rw [openedBy, Walk.opened, dequeue]
    cases hidden : (walk.marksOf node.id).uninteresting with
    | true => rfl
    | false =>
      have shown : ¬ walk.Hidden node.id := by simp [Hidden, hidden]
      have counted := consistent.counts (consistent.waiting first) shown
      simp only [lowers { walk with pending := walk.pending.tail } counted]
      rfl
  rw [visit_opened, visitBy, opened]
  exact Action.andThen_congr
    (meetParentBy_eq lowers _ node.parents (consistent.opened first) faithful) fun _ _ _ _ => rfl

/-- A search comes to the same if it does so after its first visit. -/
theorem searchFirstBy_eq {search other : Action (Option Node)} (consistent : walk.Consistent source)
    (faithful : graph.Faithful source)
    (same : ∀ after kept, after.Consistent source → kept.Faithful source →
      other after kept = search after kept) :
    searchFirst (visitBy lower source) other walk graph =
      searchFirst (visit source) search walk graph := by
  cases first : walk.pending with
  | nil => rw [searchFirst_nil _ other graph first, searchFirst_nil _ search graph first]
  | cons node rest =>
    rw [searchFirst_cons _ other graph first, searchFirst_cons _ search graph first]
    refine Action.andThen_congr (visitBy_eq lowers consistent faithful first)
      fun verdict after kept ran => ?_
    cases verdict with
    | emit | finish => rfl
    | pass =>
      obtain ⟨consistent, faithful⟩ :=
        visit_consistent consistent faithful first ran fun other => nomatch other
      exact same after kept consistent faithful

/-- Searching for one commit. -/
theorem searchBy_eq (most : Nat) (consistent : walk.Consistent source)
    (faithful : graph.Faithful source) :
    searchBy (visitBy lower source) most walk graph = searchBy (visit source) most walk graph := by
  induction most generalizing walk graph with
  | zero => exact searchFirstBy_eq lowers consistent faithful fun _ _ _ _ => rfl
  | succ most inductionHypothesis =>
    exact searchFirstBy_eq lowers consistent faithful fun _ _ => inductionHypothesis

omit lowers in
/-- Where a commit is found queue, counter and marks are in step, if they are where it is found
after the first visit. -/
theorem searchFirst_found {search : Action (Option Node)} (consistent : walk.Consistent source)
    (faithful : graph.Faithful source)
    (later : ∀ between store, between.Consistent source → store.Faithful source →
      search between store = (.ok (some node), after, kept) →
        after.Consistent source ∧ kept.Faithful source)
    (found : searchFirst (visit source) search walk graph = (.ok (some node), after, kept)) :
    after.Consistent source ∧ kept.Faithful source := by
  cases first : walk.pending with
  | nil =>
    rw [searchFirst_nil _ search graph first] at found
    cases found
  | cons head rest =>
    rw [searchFirst_cons _ search graph first] at found
    obtain ⟨verdict, between, store, ran, resumed⟩ := Action.of_andThen found
    cases verdict with
    | finish => cases resumed
    | emit =>
      cases resumed
      exact visit_consistent consistent faithful first ran fun other => nomatch other
    | pass =>
      obtain ⟨consistent, faithful⟩ :=
        visit_consistent consistent faithful first ran fun other => nomatch other
      exact later between store consistent faithful resumed

omit lowers in
/-- Where a commit is found queue, counter and marks are in step. -/
theorem searchBy_found (most : Nat) (consistent : walk.Consistent source)
    (faithful : graph.Faithful source)
    (found : searchBy (visit source) most walk graph = (.ok (some node), after, kept)) :
    after.Consistent source ∧ kept.Faithful source := by
  induction most generalizing walk graph with
  | zero =>
    refine searchFirst_found consistent faithful ?_ found
    intro _ _ _ _ none
    cases none
  | succ most inductionHypothesis =>
    exact searchFirst_found consistent faithful (fun _ _ => inductionHypothesis) found

omit lowers in
/-- Searches that come to the same do so while all commits are searched for. -/
theorem collectBy_congr {search other : Action (Option Node)}
    (same : ∀ walk graph, walk.Consistent source → graph.Faithful source →
      other walk graph = search walk graph)
    (stays : ∀ walk graph node after kept, walk.Consistent source → graph.Faithful source →
      search walk graph = (.ok (some node), after, kept) →
        after.Consistent source ∧ kept.Faithful source)
    (most : Nat) (consistent : walk.Consistent source) (faithful : graph.Faithful source) :
    collectBy other most walk graph = collectBy search most walk graph := by
  induction most generalizing walk graph with
  | zero => exact Action.andThen_congr (same walk graph consistent faithful) fun _ _ _ _ => rfl
  | succ most inductionHypothesis =>
    apply Action.andThen_congr (same walk graph consistent faithful)
    intro found after kept ran
    cases found with
    | none => rfl
    | some node =>
      obtain ⟨consistent, faithful⟩ := stays walk graph node after kept consistent faithful ran
      exact Action.andThen_congr (inductionHypothesis consistent faithful) fun _ _ _ _ => rfl

omit lowers in
/-- Only a walk that has kept nothing searches. -/
theorem continuedBy_congr {search other : Action (Option Node)}
    (same : walk.output = none → other walk graph = search walk graph) :
    continuedBy other walk graph = continuedBy search walk graph := by
  cases output : walk.output with
  | none => rw [continuedBy_eq other output, continuedBy_eq search output, same output]
  | some nodes =>
    cases nodes <;> simp only [continuedBy, guarded, proceedBy, Action.andThen, output]

omit lowers in
/-- Whenever a walk searches queue, counter and marks are in step. -/
theorem Stage.searches {replies : List Reply} (stage : Stage source walk replies)
    (unfinished : walk.phase ≠ .exhausted) (output : walk.output = none) :
    walk.Consistent source := by
  cases stage with
  | waiting marked => exact marked.consistent
  | finished phase => exact absurd phase unfinished
  | giving _ _ owes =>
    cases owes with
    | byTime _ settled => exact settled.consistent
    | kept _ _ some =>
      rw [output] at some
      cases some

/-- Asking for a commit. -/
theorem requestBy_eq {replies : List Reply} (stage : Stage source walk replies)
    (faithful : graph.Faithful source) :
    requestBy (searchLowering lower source) walk graph = next source walk graph := by
  rw [← requestBy_next, nextByTime, ← searchBy_visit]
  cases phase : walk.phase with
  | exhausted => simp only [requestBy, phase]
  | running =>
    simp only [requestBy, phase]
    apply continuedBy_congr
    intro output
    exact searchBy_eq lowers ObjectId.total (stage.searches (by simp [phase]) output) faithful
  | configured =>
    have output := stage.output_none phase
    have started := (stage.searches (by simp [phase]) output).congr (running_state walk)
    simp only [requestBy, phase]
    by_cases all : walk.order.needsAll = true
    · refine Action.andThen_congr ?_ fun _ after kept ran => ?_
      · have collected : collectBy (searchLowering lower source) ObjectId.total
            { walk with phase := .running } graph =
            collectBy (searchBy (visit source) ObjectId.total) ObjectId.total
              { walk with phase := .running } graph :=
          collectBy_congr (fun _ _ => searchBy_eq lowers ObjectId.total)
            (fun _ _ _ _ _ => searchBy_found ObjectId.total) ObjectId.total started faithful
        simp only [startBy, all, if_true, Action.andThen, guarded, collected]
      · apply continuedBy_congr
        intro none
        simp only [startBy, all, if_true] at ran
        obtain ⟨nodes, between, store, _, keeps⟩ := Action.of_andThen ran
        cases keeps
        cases none
    · simp only [startBy, all, Action.andThen]
      exact continuedBy_congr fun _ => searchBy_eq lowers ObjectId.total started faithful

/-- Hiding a commit before the pass. -/
theorem hideBy_eq {replies : List Reply} (stage : Stage source walk replies) (id : ObjectId)
    (faithful : graph.Faithful source) :
    hideBy lower source id walk graph = hide source id walk graph := by
  rw [hide_eq, hideBy, whenConfigured, whenConfigured]
  by_cases waits : walk.phase = .configured
  · rw [if_pos waits, if_pos waits]
    have consistent := stage.searches (by simp [waits]) (stage.output_none waits)
    apply Action.andThen_congr rfl
    intro node between store fetched
    obtain ⟨rfl, faithful⟩ := of_fetch faithful fetched
    refine Action.andThen_congr ?_ fun _ _ _ _ => rfl
    exact hideWithinBy_eq lowers ObjectId.total id consistent faithful
      (ObjectId.unmarked_le_total between.Hidden)
  · rw [if_neg waits, if_neg waits]

/-- Every operation on a walk with a history. -/
theorem performBy_eq {events : List Event} (history : History source events walk)
    (faithful : graph.Faithful source) (operation : Operation) :
    performBy lower source operation walk graph = perform source operation walk graph := by
  cases operation with
  | next => rw [performBy, requestBy_eq lowers history.stage faithful, perform]
  | body | marks | describe | reset => rfl
  | set setting =>
    cases setting with
    | filter | order => rfl
    | mark told =>
      cases told with
      | start id => rfl
      | hide id =>
        rw [performBy, hideBy_eq lowers history.stage id faithful]
        rfl

end same

section plain

/-- Lowering as in the walk itself hides what the walk hides. -/
theorem hideWithinBy_plain (most : Nat) :
    hideWithinBy lowered source most = hideWithin source most := by
  induction most with
  | zero =>
    funext id walk graph
    rw [hideWithinBy, hideFirstBy, hideWithin_eq]
    rfl
  | succ most inductionHypothesis =>
    funext id walk graph
    rw [hideWithinBy, hideFirstBy, hideWithin_eq, inductionHypothesis]
    rfl

/-- So it meets parents. -/
theorem meetParentBy_plain (hidden : Bool) :
    meetParentBy lowered source hidden = meetParent source hidden := by
  funext parent
  have veils : veilParentBy lowered source hidden parent = veilParent source hidden parent := by
    funext walk graph
    rw [veilParentBy, hideWithinBy_plain]
    rfl
  rw [meetParentBy, meetParent_eq, veils]

/-- So it visits. -/
theorem visitBy_plain : visitBy lowered source = visit source := by
  funext node walk graph
  have opened : walk.openedBy lowered node = walk.opened node := by
    rw [openedBy, Walk.opened, dequeue]
    cases (walk.marksOf node.id).uninteresting <;> rfl
  rw [visitBy, meetParentBy_plain, visit_opened, opened]

/-- So it searches. -/
theorem searchLowering_plain : searchLowering lowered source = nextByTime source := by
  rw [searchLowering, visitBy_plain, searchBy_visit]
  rfl

/-- So it hides a commit before the pass. -/
theorem hideBy_plain (id : ObjectId) : hideBy lowered source id = hide source id := by
  rw [hideBy, hideWithinBy_plain, hide_eq]
  rfl

/-- So every operation of the walk itself is one of them. -/
theorem performBy_plain : performBy lowered source = perform source := by
  funext operation walk graph
  cases operation with
  | next => rw [performBy, searchLowering_plain, requestBy_next, perform]
  | body | marks | describe | reset => rfl
  | set setting =>
    cases setting with
    | filter | order => rfl
    | mark told =>
      cases told with
      | start id => rfl
      | hide id =>
        rw [performBy, hideBy_plain]
        rfl

end plain

/-- A setting cuts no walk short. -/
theorem Whole.setting {events : List Event} (whole : Whole source events walk) (setting : Setting) :
    ∃ events, Whole source events (perform source (.set setting) walk {}).2.1 := by
  rcases ran : perform source (.set setting) walk {} with ⟨reply, after, kept⟩
  exact ⟨_, whole.more (Graph.faithful_empty source) ran nofun⟩

/-- In every state of a walk that is not finished by a stop, an early end or a fault the pending
commits are distinct, they are those that are discovered and not visited, and the counter is the
number of those that are not hidden. Whatever has happened to a walk, no operation lowers the
counter where it is zero: it does the same, whatever lowering does to the walk there.

Proof: each step keeps queue, counter and marks in step, and those that lower the counter do so for
a commit that waits and is not hidden, which has been counted. -/
theorem pending_counted :
    (∀ walk, Unfinished source walk →
      (walk.pending.map Node.id).Nodup ∧
      (∀ id, id ∈ walk.pending.map Node.id ↔ walk.Discovered id ∧ ¬ walk.Visited id) ∧
      walk.interesting = walk.pending.countP walk.shows) ∧
    performBy lowered source = perform source ∧
    ∀ lower : Walk → Walk, (∀ walk, 0 < walk.interesting → lower walk = walk.lowered) →
      ∀ (events : List Event) (walk : Walk) (graph : Graph) (operation : Operation),
        History source events walk → graph.Faithful source →
          performBy lower source operation walk graph = perform source operation walk graph := by
  refine ⟨?_, performBy_plain, ?_⟩
  · intro walk unfinished
    have consistent := unfinished.consistent
    exact ⟨consistent.distinct, consistent.queued, consistent.counted⟩
  · intro lower lowers events walk graph operation history faithful
    exact performBy_eq lowers history faithful operation

/-- A walk over the fork that shows one tip and hides the other one. -/
def halved : Walk :=
  (perform fork (.set (.mark (.hide (.uniform 2))))
    (perform fork (.set (.mark (.start (.uniform 3)))) {} {}).2.1 {}).2.1

/-- Both tips wait and one of them is counted. The next request does the same if zero were lowered
to the greatest number of a machine, in another order. -/
theorem pending_counted_fork :
    Unfinished fork halved ∧ halved.pending.map Node.id = [.uniform 3, .uniform 2] ∧
      (halved.pending.map Node.id).Nodup ∧ halved.interesting = 1 ∧
      halved.interesting = halved.pending.countP halved.shows ∧
      performBy
          (fun walk => if walk.interesting = 0 then
            { walk with interesting := Text.wordMax, order := { walk.order with reversed := true } }
            else walk.lowered)
          fork .next halved {} =
        perform fork .next halved {} := by
  obtain ⟨states, _, lowering⟩ := @pending_counted fork
  obtain ⟨_, started⟩ := (@Whole.new fork).setting (.mark (.start (.uniform 3)))
  obtain ⟨events, whole⟩ := started.setting (.mark (.hide (.uniform 2)))
  have whole : Whole fork events halved := whole
  have waiting : halved.pending.map Node.id = [.uniform 3, .uniform 2] ∧
      halved.interesting = 1 := by
    decide +kernel
  obtain ⟨distinct, _, counted⟩ := states halved (.idle whole)
  refine ⟨.idle whole, waiting.1, distinct, waiting.2, counted, ?_⟩
  exact lowering _ (fun walk counted => if_neg counted.ne') events halved {} .next whole.history
    (Graph.faithful_empty fork)

end Ancestry.Walk
