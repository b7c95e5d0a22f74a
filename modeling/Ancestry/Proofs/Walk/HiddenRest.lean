import Ancestry.Proofs.Walk.Emptying
import Ancestry.Proofs.Walk.Lifecycle

/-!
# Passes with only hidden commits left

Where only hidden commits wait, a walk by time has nothing more to give, and its pass is over
with the next request. The walk finds that out after it has visited the first of them: parents
of this one that are new to it are still read. So the request is answered with none if all of
them resolve, and with a fault if one does not, although no commit would be shown after that.
What is below these parents is not read.
-/

namespace Ancestry.Walk

variable {source : Source} {walk : Walk} {graph : Graph} {events : List Event}
  {roots hidden : List ObjectId}

/-- Why a commit cannot be met, unless it is known already. -/
def blocks (source : Source) (known : ObjectId → Bool) (id : ObjectId) : Option Fault :=
  if known id then none
  else
    match source.node id with
    | .error fault => some fault
    | .ok _ => none

/-- What a visit to the first commit of the queue would fail with. -/
def obstacle (source : Source) (walk : Walk) : Option Fault :=
  walk.pending.head?.bind fun node => node.parents.findSome? (blocks source walk.knows)

/-- Nothing is in the way of a commit that is known or resolves. -/
theorem blocks_none_iff (known : ObjectId → Bool) (id : ObjectId) :
    blocks source known id = none ↔ known id = true ∨ source.Resolves id := by
  by_cases old : known id = true
  · simp [blocks, old]
  · cases resolved : source.node id with
    | error fault => simp [blocks, old, Source.Resolves, resolved]
    | ok node => simp [blocks, old, Source.Resolves, resolved]

/-- A commit that resolves is in the way neither before nor after it is known. -/
theorem blocks_known {known : ObjectId → Bool} {id : ObjectId} (resolves : source.Resolves id) :
    blocks source (fun other => known other || other = id) = blocks source known := by
  funext other
  by_cases same : other = id
  · subst same
    rw [(blocks_none_iff known other).mpr (.inr resolves)]
    exact (blocks_none_iff _ other).mpr (.inr resolves)
  · simp [blocks, same]

/-- Meeting commits fails with the first fault that is in the way. -/
theorem enlist_blocks (ids : List ObjectId) (known : ObjectId → Bool) (queue : List Node) :
    ids.findSome? (blocks source known) =
      match enlist source ids known queue with
      | .error fault => some fault
      | .ok _ => none := by
  induction ids generalizing known queue with
  | nil => rfl
  | cons id rest inductionHypothesis =>
    rw [List.findSome?_cons]
    by_cases old : known id = true
    · rw [(blocks_none_iff known id).mpr (.inl old), enlist, if_pos old]
      exact inductionHypothesis known queue
    · cases resolved : source.node id with
      | error fault => simp [blocks, enlist, old, resolved]
      | ok node =>
        rw [(blocks_none_iff known id).mpr (.inr ⟨node, resolved⟩), enlist, if_neg old, resolved]
        rw [← inductionHypothesis, blocks_known ⟨node, resolved⟩]

/-- There is no obstacle where all parents of the first commit are known or resolve. -/
theorem obstacle_none_iff :
    walk.obstacle source = none ↔
      ∀ node ∈ walk.pending.head?, ∀ parent ∈ node.parents,
        walk.Discovered parent ∨ source.Resolves parent := by
  simp only [obstacle, Option.bind_eq_none_iff, List.findSome?_eq_none_iff, blocks_none_iff]
  rfl

/-- Where only hidden commits wait a search ends with the first of them. -/
theorem nextWithin_veiled (most : Nat) (settled : walk.Settled source roots hidden)
    (all : ∀ node ∈ walk.pending, walk.Hidden node.id) (faithful : graph.Faithful source) :
    ∃ after kept, nextWithin source most walk graph =
      ((walk.obstacle source).elim (.ok none) .error, after, kept) := by
  rw [nextWithin]
  cases first : walk.pending with
  | nil =>
    refine ⟨walk, graph, ?_⟩
    simp [obstacle, first]
  | cons node rest =>
    have obstructed : walk.obstacle source =
        match enlist source node.parents walk.knows walk.pending.tail with
        | .error fault => some fault
        | .ok _ => none := by
      rw [obstacle, first]
      exact enlist_blocks node.parents walk.knows rest
    have veiled : walk.Hidden node.id := all node (by simp [first])
    obtain ⟨result, after, kept, ran, _, stuck | ⟨met, _, advances, proceeds⟩⟩ :=
      visit_cases settled.consistent faithful first
    · obtain ⟨fault, rfl, _, unresolved⟩ := stuck
      rw [unresolved] at obstructed
      refine ⟨after, kept, ?_⟩
      simp only [ran, obstructed, Option.elim]
    · rw [advances.queue] at obstructed
      -- What the visit has queued is hidden too, so that it ends the pass.
      cases proceeds with
      | ended =>
        refine ⟨met.clearPending, kept, ?_⟩
        simp only [ran, obstructed, Option.elim]
      | skipped _ left => exact absurd (advances.veiled settled first all) left
      | judged shown => exact absurd veiled shown

/-- A walk by time in which only hidden commits wait gives no more commits. The next request
ends its pass, but it fails if some parent of the first commit in the queue is new to the walk
and does not resolve, and it is answered with none if there is no such parent.

Proof: the first commit in the queue is taken and its parents are met, which fails at an obstacle.
What they queue is hidden too, so that this visit ends the pass. -/
theorem hidden_rest_ends (history : History source events walk)
    (byTime : walk.order.needsAll = false) (unfinished : walk.phase ≠ .exhausted)
    (all : ∀ node ∈ walk.pending, walk.Hidden node.id) (faithful : graph.Faithful source) :
    (∃ after kept, next source walk graph =
        ((walk.obstacle source).elim (.ok none) .error, after, kept) ∧
      after.phase = .exhausted ∧ ∀ store, next source after store = (.ok none, after, store)) ∧
    (walk.obstacle source = none ↔
      ∀ node ∈ walk.pending.head?, ∀ parent ∈ node.parents,
        walk.Discovered parent ∨ source.Resolves parent) := by
  obtain ⟨opened, roots, hidden, settled⟩ := history.stage.opens byTime unfinished
  have same : SameState walk walk.running := running_state walk
  have veiled : ∀ node ∈ walk.running.pending, walk.running.Hidden node.id := all
  obtain ⟨after, kept, found⟩ :=
    nextWithin_veiled ObjectId.total (settled.congr same) veiled faithful
  change nextByTime source walk.running graph =
    ((walk.obstacle source).elim (.ok none) .error, after, kept) at found
  have asked : next source walk graph =
      closing ((walk.obstacle source).elim (.ok none) .error, after, kept) := by
    have output : walk.running.output = none := opened.output
    rw [next_open opened, continued_eq output, found]
  refine ⟨?_, obstacle_none_iff⟩
  cases obstructed : walk.obstacle source with
  | none =>
    rw [obstructed] at asked
    exact ⟨_, kept, asked, rfl, fun _ => next_exhausted rfl⟩
  | some fault =>
    rw [obstructed] at asked
    exact ⟨_, kept, asked, rfl, fun _ => next_exhausted rfl⟩

/-- A tip of the fork is hidden and nothing else is marked. Its parent resolves, so that the
next request is answered with none. -/
theorem hidden_rest_ends_fork :
    ∃ walk, History fork [(.set (.mark (.hide (.uniform 3))), .done)] walk ∧
      ∃ after kept, next fork walk {} = (.ok none, after, kept) ∧
        next fork after kept = (.ok none, after, kept) := by
  have evaluated : (session fork [.set (.mark (.hide (.uniform 3)))] {} {}).1 = [.done] ∧
      (session fork [.set (.mark (.hide (.uniform 3)))] {} {}).2.1.order = {} ∧
      (session fork [.set (.mark (.hide (.uniform 3)))] {} {}).2.1.phase ≠ .exhausted ∧
      (∀ node ∈ (session fork [.set (.mark (.hide (.uniform 3)))] {} {}).2.1.pending,
        ((session fork [.set (.mark (.hide (.uniform 3)))] {} {}).2.1.marksOf
          node.id).uninteresting = true) ∧
      (session fork [.set (.mark (.hide (.uniform 3)))] {} {}).2.1.obstacle fork = none := by
    decide +kernel
  obtain ⟨answered, state⟩ := evaluated
  obtain ⟨walk, _, ran, history, _⟩ := exists_history answered
  rw [ran] at state
  obtain ⟨order, unfinished, all, free⟩ := state
  obtain ⟨⟨after, kept, asked, _, ends⟩, _⟩ :=
    hidden_rest_ends history (by rw [order]; rfl) unfinished all (Graph.faithful_empty fork)
  rw [free] at asked
  exact ⟨walk, history, after, kept, asked, ends kept⟩

/-- A commit without parents, and an older one whose parent is missing. -/
def severed : Source := .bare [(.uniform 2, [.uniform 1], 2), (.uniform 3, [], 3)]

/-- Only the older commit is hidden, and the other one is given. -/
def severing : List Operation :=
  [.set (.mark (.start (.uniform 3))), .set (.mark (.hide (.uniform 2))), .next]

/-- Only a hidden commit waits, and still the next request fails. -/
theorem severed_fails :
    ∃ walk graph, History severed
        (severing.zip [.done, .done, .commit (some ⟨.uniform 3, .zero, [], 3⟩)]) walk ∧
      graph.Faithful severed ∧ walk.order.needsAll = false ∧ walk.phase ≠ .exhausted ∧
      (∀ node ∈ walk.pending, walk.Hidden node.id) ∧
      ∃ after kept,
        next severed walk graph = (.error (.objectMissing (.uniform 1)), after, kept) := by
  have evaluated : (session severed severing {} {}).1 =
        [.done, .done, .commit (some ⟨.uniform 3, .zero, [], 3⟩)] ∧
      (session severed severing {} {}).2.1.order = {} ∧
      (session severed severing {} {}).2.1.phase ≠ .exhausted ∧
      (∀ node ∈ (session severed severing {} {}).2.1.pending,
        ((session severed severing {} {}).2.1.marksOf node.id).uninteresting = true) ∧
      (next severed (session severed severing {} {}).2.1 (session severed severing {} {}).2.2).1 =
        .error (.objectMissing (.uniform 1)) := by
    decide +kernel
  obtain ⟨answered, state⟩ := evaluated
  obtain ⟨walk, graph, ran, history, faithful⟩ := exists_history answered
  rw [ran] at state
  obtain ⟨order, unfinished, all, fails⟩ := state
  refine ⟨walk, graph, history, faithful, by rw [order]; rfl, unfinished, all, ?_⟩
  rcases asked : next severed walk graph with ⟨result, after, kept⟩
  rw [asked] at fails
  exact ⟨after, kept, by rw [← fails]⟩

end Ancestry.Walk
