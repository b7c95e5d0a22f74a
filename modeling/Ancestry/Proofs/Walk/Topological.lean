import Ancestry.Proofs.History
import Ancestry.Proofs.Walk.Counting

/-!
# What the topological order does

A node comes only when none of its children is left, and a node that never comes has a child
that never comes. Every node is taken from the queue at most twice, and the second time it
comes.
-/

namespace Ancestry.Topological

/-- No node stands before one of its children. -/
abbrev Ordered (nodes : List Node) : Prop :=
  nodes.Pairwise fun earlier later => earlier.id ∉ later.parents

namespace State

variable {state : State} {waits : List Node} {owed : List ObjectId} {node : Node}

/-- The counts of a state are right. Here `waits` are the nodes that are held back, and
`owed` the parents of the node that came last which have not been told of it. -/
structure Counted (state : State) (waits : List Node) (owed : List ObjectId) : Prop where
  counted : ∀ id count, state.remaining[id]? = some count →
    count = owed.count id + links (state.queue ++ waits) id
  known : ∀ node ∈ state.queue ++ waits, ∃ count, state.remaining[node.id]? = some count
  held : ∀ id node, state.held[id]? = some node ↔ node ∈ waits ∧ node.id = id
  distinct : ((state.queue ++ waits).map Node.id).Nodup

/-- Only nodes with missing children are held back. -/
structure Balanced (state : State) (waits : List Node) (owed : List ObjectId) : Prop
    extends Counted state waits owed where
  blocked : ∀ node ∈ waits, 0 < state.missing node.id

/-- Exact counts are right ones. -/
theorem Counted.tallied (exactly : state.Counted waits owed) : state.Tallied waits owed :=
  ⟨exactly.counted, fun id node => (exactly.held id node).mp⟩

/-- What is missing for a node that has not come are the children that have not come. -/
theorem Counted.missing (exactly : state.Counted waits owed) {node : Node}
    (member : node ∈ state.queue ++ waits) :
    state.missing node.id = owed.count node.id + links (state.queue ++ waits) node.id := by
  obtain ⟨count, counts⟩ := exactly.known node member
  rw [missing_eq, counts]
  exact exactly.counted node.id count counts

/-- How many more nodes are taken from the queue at most: once a node that is held back or
that nothing holds back, and twice any other. -/
def effort (state : State) (waits : List Node) : Nat :=
  (state.queue.map fun node => if 0 < state.missing node.id then 2 else 1).sum + waits.length

/-- Where fewer children are missing there is no more effort. -/
theorem effort_mono {left right : State} (fewer : ∀ id, left.missing id ≤ right.missing id)
    (queue : List Node) :
    (queue.map fun node => if 0 < left.missing node.id then 2 else 1).sum ≤
      (queue.map fun node => if 0 < right.missing node.id then 2 else 1).sum := by
  induction queue with
  | nil => exact Nat.le_refl _
  | cons node rest inductionHypothesis =>
    have here := fewer node.id
    simp only [List.map_cons, List.sum_cons]
    refine Nat.add_le_add ?_ inductionHypothesis
    split <;> split <;> omega

/-- Telling a parent settles what it is owed. -/
theorem Counted.told {parent : ObjectId} {count : Nat}
    (exactly : state.Counted waits (parent :: owed))
    (counts : state.remaining[parent]? = some count) :
    (state.told parent count).Counted waits owed := by
  refine ⟨(exactly.tallied.told counts).counted, fun node member => ?_, exactly.held,
    exactly.distinct⟩
  have remains : (state.told parent count).remaining[node.id]? =
      if parent = node.id then some (count - 1) else state.remaining[node.id]? :=
    getElem?_insert state.remaining parent node.id (count - 1)
  rw [remains]
  by_cases same : parent = node.id
  · exact ⟨_, if_pos same⟩
  · rw [if_neg same]
    exact exactly.known node member

/-- Of nodes with distinct identifiers the first one differs from the rest. -/
theorem apart {queue rest : List Node} (distinct : ((node :: queue ++ rest).map Node.id).Nodup) :
    ∀ other ∈ rest, other.id ≠ node.id := by
  intro other member same
  have fresh := (List.nodup_cons.mp distinct).1
  exact fresh (List.mem_map.mpr ⟨other, List.mem_append_right queue member, same⟩)

/-- A node that was held back can come next. -/
theorem Counted.unheld {before after : List Node}
    (exactly : state.Counted (before ++ node :: after) owed) :
    (state.unheld node).Counted (before ++ after) owed := by
  have moved := unheld_perm state node before after
  have distinct := (moved.map Node.id).nodup_iff.mp exactly.distinct
  refine ⟨exactly.tallied.unheld.counted, fun other member => ?_, fun id other => ?_, distinct⟩
  · exact exactly.known other (moved.mem_iff.mpr member)
  · have held := exactly.held id other
    rw [getElem?_unheld]
    by_cases same : node.id = id
    · rw [if_pos same]
      refine ⟨nofun, fun both => ?_⟩
      exact absurd (both.2.trans same.symm) (apart distinct other both.1)
    · rw [if_neg same, held, List.mem_append, List.mem_cons, List.mem_append]
      constructor
      · rintro ⟨first | rfl | last, named⟩
        · exact ⟨.inl first, named⟩
        · exact absurd named same
        · exact ⟨.inr last, named⟩
      · rintro ⟨first | last, named⟩
        · exact ⟨.inl first, named⟩
        · exact ⟨.inr (.inr last), named⟩

/-- What the release of parents comes to: the same nodes have not come, it takes no more
effort, and nothing is owed to them any more. -/
structure Releases (before after : State) (waits left : List Node) (owed : List ObjectId) :
    Prop where
  balanced : after.Balanced left owed
  same : (after.queue ++ left).Perm (before.queue ++ waits)
  effort : after.effort left ≤ before.effort waits

/-- A parent is told of a child and stays where it is. -/
theorem Balanced.releases_told {parent : ObjectId} {count : Nat}
    (balanced : state.Balanced waits (parent :: owed))
    (counts : state.remaining[parent]? = some count)
    (stays : ∀ node ∈ waits, node.id = parent → 0 < count - 1) :
    Releases state (state.told parent count) waits waits owed := by
  refine ⟨⟨balanced.toCounted.told counts, fun node member => ?_⟩, .rfl, ?_⟩
  · rw [missing_told]
    split
    · rename_i same
      exact stays node member same.symm
    · exact balanced.blocked node member
  · exact Nat.add_le_add_right (effort_mono (told_fewer counts) state.queue) _

/-- A parent that was held back is told of its last child and comes next. -/
theorem Balanced.releases_unheld {before after : List Node} {count : Nat}
    (balanced : state.Balanced (before ++ node :: after) (node.id :: owed))
    (counts : state.remaining[node.id]? = some count) (free : count - 1 = 0) :
    Releases state ((state.told node.id count).unheld node) (before ++ node :: after)
      (before ++ after) owed := by
  have exactly := (balanced.toCounted.told counts).unheld
  have front : (before ++ node :: after).Perm (node :: (before ++ after)) := List.perm_middle
  refine ⟨⟨exactly, fun other member => ?_⟩,
    (unheld_perm (state.told node.id count) node before after).symm, ?_⟩
  · have different : node.id ≠ other.id := (apart exactly.distinct other member).symm
    have inside : other ∈ before ++ node :: after :=
      front.mem_iff.mpr (List.mem_cons_of_mem node member)
    change 0 < (state.told node.id count).missing other.id
    rw [missing_told, if_neg different]
    exact balanced.blocked other inside
  · have ready : ¬ 0 < (state.told node.id count).missing node.id := by
      rw [missing_told, if_pos rfl, free]
      exact Nat.lt_irrefl 0
    have rest := effort_mono (told_fewer counts) state.queue
    change (List.map (fun other => if 0 < (state.told node.id count).missing other.id then 2 else 1)
      (node :: state.queue)).sum + (before ++ after).length ≤ _
    simp only [effort, List.map_cons, List.sum_cons, if_neg ready, List.length_append,
      List.length_cons]
    omega

/-- Telling a parent of its child releases it or leaves it waiting, and pays what was owed. -/
theorem release_releases {parent : ObjectId} (balanced : state.Balanced waits (parent :: owed)) :
    ∃ left, Releases state (state.release parent) waits left owed := by
  have released : Released state parent (state.release parent) :=
    release_released parent fun node holds => ((balanced.held parent node).mp holds).2
  generalize state.release parent = after at released
  cases released with
  | uncounted foreign =>
    have settled := balanced.tallied.skip foreign
    exact ⟨waits, ⟨⟨settled.counted, balanced.known, balanced.held, balanced.distinct⟩,
      balanced.blocked⟩, .rfl, Nat.le_refl _⟩
  | told counts stays =>
    refine ⟨waits, balanced.releases_told counts fun node member named => ?_⟩
    refine Nat.pos_of_ne_zero fun free => ?_
    have absent := stays free
    rw [(balanced.held parent node).mpr ⟨member, named⟩] at absent
    cases absent
  | next counts last holds named =>
    subst named
    obtain ⟨before, after, rfl⟩ := List.append_of_mem ((balanced.held _ _).mp holds).1
    exact ⟨before ++ after, balanced.releases_unheld counts last⟩

/-- All parents of a node are told of it. -/
theorem foldl_releases (parents : List ObjectId) (balanced : state.Balanced waits parents) :
    ∃ left, Releases state (parents.foldl release state) waits left [] := by
  induction parents generalizing state waits with
  | nil => exact ⟨waits, balanced, .rfl, Nat.le_refl _⟩
  | cons parent rest inductionHypothesis =>
    obtain ⟨between, first⟩ := release_releases balanced
    obtain ⟨left, others⟩ := inductionHypothesis first.balanced
    exact ⟨left, others.balanced, others.same.trans first.same,
      Nat.le_trans others.effort first.effort⟩

/-- A node that misses children waits. -/
theorem Balanced.hold {rest : List Node} (balanced : state.Balanced waits [])
    (first : state.queue = node :: rest) (misses : 0 < state.missing node.id) :
    (({ state with queue := rest } : State).hold node).Balanced (node :: waits) [] ∧
      (({ state with queue := rest } : State).hold node).effort (node :: waits) <
        state.effort waits := by
  have moved : (state.queue ++ waits).Perm (rest ++ node :: waits) := by
    rw [first]
    exact List.perm_middle.symm
  have distinct := (moved.map Node.id).nodup_iff.mp balanced.distinct
  have tallied := balanced.tallied.hold first
  constructor
  · refine ⟨⟨tallied.counted, fun other member => ?_, fun id other => ?_, distinct⟩, ?_⟩
    · exact balanced.known other (moved.mem_iff.mpr member)
    · refine ⟨tallied.among id other, ?_⟩
      have different := apart (moved.trans List.perm_middle |>.map Node.id |>.nodup_iff.mp
        balanced.distinct)
      rintro ⟨member, rfl⟩
      change (state.held.insert node.id node)[other.id]? = some other
      simp only [Std.TreeMap.getElem?_insert, Std.LawfulEqCmp.compare_eq_iff_eq]
      rcases List.mem_cons.mp member with rfl | member
      · exact if_pos rfl
      · rw [if_neg (different other member).symm]
        exact (balanced.held other.id other).mpr ⟨member, rfl⟩
    · intro other member
      rcases List.mem_cons.mp member with rfl | member
      · exact misses
      · exact balanced.blocked other member
  · change (List.map (fun other => if 0 < state.missing other.id then 2 else 1) rest).sum +
      (node :: waits).length < _
    simp only [effort, first, List.map_cons, List.sum_cons, if_pos misses, List.length_cons]
    omega

/-- A node that misses no child comes, and owes its parents. -/
theorem Balanced.take {rest : List Node} (balanced : state.Balanced waits [])
    (first : state.queue = node :: rest) (free : ¬ 0 < state.missing node.id) :
    ({ state with queue := rest } : State).Balanced waits node.parents ∧
      ({ state with queue := rest } : State).effort waits < state.effort waits := by
  have distinct := balanced.distinct
  rw [first] at distinct
  constructor
  · refine ⟨⟨(balanced.tallied.take first).counted, fun other member => ?_, balanced.held,
      (List.nodup_cons.mp distinct).2⟩, balanced.blocked⟩
    refine balanced.known other ?_
    rw [first]
    exact List.mem_cons_of_mem node member
  · change (List.map (fun other => if 0 < state.missing other.id then 2 else 1) rest).sum +
      waits.length < _
    simp only [effort, first, List.map_cons, List.sum_cons, if_neg free]
    omega

/-- A node that misses no child is named by no node that has not come. -/
theorem Balanced.unnamed {rest : List Node} (balanced : state.Balanced waits [])
    (first : state.queue = node :: rest) (free : ¬ 0 < state.missing node.id) :
    ∀ other ∈ state.queue ++ waits, node.id ∉ other.parents := by
  intro other member named
  have inside : node ∈ state.queue ++ waits := by simp [first]
  have counts := balanced.missing inside
  have some := links_pos.mpr ⟨other, member, named⟩
  omega

/-- What the sort of a state comes to. Each node comes or is stuck, and none comes before one
of its children. A node that is stuck has a child that is, and where none is stuck none is held
back in the end. -/
structure Sorts (state : State) (waits : List Node) (result : List Node × List Node)
    (stuck : List Node) : Prop where
  same : (result.1 ++ stuck).Perm (state.queue ++ waits)
  ordered : Ordered result.1
  stays : ∀ node ∈ stuck, ∃ child ∈ stuck, node.id ∈ child.parents
  clear : stuck = [] → result.2 = []

/-- With nothing in the queue the nodes that are held back are stuck. -/
theorem Balanced.idle (balanced : state.Balanced waits []) (most : Nat)
    (empty : state.queue = []) : Sorts state waits (state.run most) waits := by
  rw [run_empty most empty]
  refine ⟨by rw [empty], List.Pairwise.nil, fun node member => ?_, fun none => ?_⟩
  · have counts := balanced.missing (List.mem_append_right state.queue member)
    have misses := balanced.blocked node member
    rw [empty] at counts
    exact links_pos.mp (by simpa [counts] using misses)
  · subst none
    exact values_nil balanced.tallied.vacant

/-- Twice the queue and once the nodes that wait are enough. -/
theorem effort_le (state : State) (waits : List Node) :
    state.effort waits ≤ 2 * state.queue.length + waits.length := by
  refine Nat.add_le_add_right ?_ _
  induction state.queue with
  | nil => exact Nat.le_refl _
  | cons node rest inductionHypothesis =>
    simp only [List.map_cons, List.sum_cons, List.length_cons]
    split <;> omega

/-- A node in the queue takes effort. -/
theorem effort_pos {rest : List Node} (first : state.queue = node :: rest) :
    0 < state.effort waits := by
  simp only [effort, first, List.map_cons, List.sum_cons]
  split <;> omega

/-- With enough rounds for the effort that is left, a state is sorted. -/
theorem run_sorts (most : Nat) (balanced : state.Balanced waits [])
    (enough : state.effort waits ≤ most) : ∃ stuck, Sorts state waits (state.run most) stuck := by
  induction most generalizing state waits with
  | zero =>
    cases first : state.queue with
    | nil => exact ⟨waits, balanced.idle 0 first⟩
    | cons node rest =>
      have some : 0 < state.effort waits := effort_pos first
      omega
  | succ most inductionHypothesis =>
    cases first : state.queue with
    | nil => exact ⟨waits, balanced.idle (most + 1) first⟩
    | cons node rest =>
      by_cases misses : 0 < state.missing node.id
      · obtain ⟨held, less⟩ := balanced.hold first misses
        obtain ⟨stuck, sorts⟩ := inductionHypothesis held (by omega)
        rw [run_hold most first misses]
        refine ⟨stuck, ?_, sorts.ordered, sorts.stays, sorts.clear⟩
        rw [first]
        exact sorts.same.trans List.perm_middle
      · obtain ⟨taken, less⟩ := balanced.take first misses
        obtain ⟨left, releases⟩ := foldl_releases node.parents taken
        have effort := releases.effort
        obtain ⟨stuck, sorts⟩ := inductionHypothesis releases.balanced (by omega)
        have all := sorts.same.trans releases.same
        rw [run_take most first misses]
        refine ⟨stuck, by rw [first]; exact all.cons node,
          List.pairwise_cons.mpr ⟨?_, sorts.ordered⟩, sorts.stays, sorts.clear⟩
        intro later member
        have inside := all.mem_iff.mp (List.mem_append_left stuck member)
        refine balanced.unnamed first misses later ?_
        rw [first]
        exact List.mem_cons_of_mem node inside

end State

/-- The sort starts with right counts. -/
theorem balanced_start {nodes : List Node} (distinct : (nodes.map Node.id).Nodup) :
    State.Balanced ⟨childCounts nodes, ∅, nodes⟩ [] [] := by
  refine ⟨⟨(tallied_start nodes).counted, fun node member => ?_, fun id node => ?_, ?_⟩, ?_⟩
  · rw [List.append_nil] at member
    exact ⟨_, (getElem?_childCounts nodes node.id).trans (if_pos (List.mem_map_of_mem member))⟩
  · simp
  · simpa using distinct
  · simp

/-- Of nodes that are sorted none stands before a child. Where nodes are left out, each of
them has a child that is left out, and where none is, none is held back. -/
theorem sort_sorts {nodes : List Node} (distinct : (nodes.map Node.id).Nodup) :
    ∃ stuck, ((sort nodes).1 ++ stuck).Perm nodes ∧
      Ordered (sort nodes).1 ∧
      (∀ node ∈ stuck, ∃ child ∈ stuck, node.id ∈ child.parents) ∧
      (stuck = [] → (sort nodes).2 = []) := by
  obtain ⟨stuck, sorts⟩ :=
    State.run_sorts (2 * nodes.length) (balanced_start distinct) (State.effort_le _ _)
  exact ⟨stuck, sorts.same.trans (.of_eq (List.append_nil nodes)), sorts.ordered, sorts.stays,
    sorts.clear⟩

end Ancestry.Topological
