import Ancestry.Walk.Topological
import Mathlib.Algebra.GroupWithZero.Nat

/-!
# The counts of the topological order

At any moment of the sort the count of a commit is the number of times that nodes which
have not come yet name it as a parent. Whatever nodes are sorted, with cycles among them or
with a commit twice, no count is ever lowered that is zero already. And where every node
comes after all of its children, no count is left when its node's turn comes, so that
nothing is moved.
-/

namespace Ancestry.Topological

/-- How often some nodes name a commit as a parent. -/
def links (nodes : List Node) (id : ObjectId) : Nat := (nodes.flatMap Node.parents).count id

/-- A node adds one link for each time it names the commit as a parent. -/
theorem links_cons (node : Node) (rest : List Node) (id : ObjectId) :
    links (node :: rest) id = node.parents.count id + links rest id := by
  simp [links]

/-- The order of nodes adds no links and takes none. -/
theorem links_perm {left right : List Node} (perm : left.Perm right) (id : ObjectId) :
    links left id = links right id :=
  (perm.flatMap_right Node.parents).count_eq id

/-- There is a link where one of the nodes names the commit as a parent. -/
theorem links_pos {nodes : List Node} {id : ObjectId} :
    0 < links nodes id ↔ ∃ node ∈ nodes, id ∈ node.parents := by
  rw [links, List.count_pos_iff, List.mem_flatMap]

section Counts

variable {counts : Remaining}

/-- A count that is set is found at its commit and nowhere else. -/
theorem getElem?_insert (counts : Remaining) (other id : ObjectId) (count : Nat) :
    (counts.insert other count)[id]? = if other = id then some count else counts[id]? := by
  simp only [Std.TreeMap.getElem?_insert, Std.LawfulEqCmp.compare_eq_iff_eq]

/-- One more child of a commit, if it is counted. -/
theorem getElem?_addChild (counts : Remaining) (parent id : ObjectId) :
    (addChild counts parent)[id]? = counts[id]?.map (· + [parent].count id) := by
  by_cases same : parent = id
  · subst same
    cases known : counts[parent]? with
    | none => simp [addChild, known]
    | some count => simp [addChild, known]
  · have other : [parent].count id = 0 := by simp [same]
    rw [other]
    cases known : counts[parent]? with
    | none => simp [addChild, known]
    | some count => simp [addChild, known, getElem?_insert, same]

/-- Counted parents are added to what was counted, each as often as it is named. -/
theorem getElem?_foldl_addChild (parents : List ObjectId) (counts : Remaining) (id : ObjectId) :
    (parents.foldl addChild counts)[id]? = counts[id]?.map (· + parents.count id) := by
  induction parents generalizing counts with
  | nil => simp
  | cons parent rest inductionHypothesis =>
    have sum : (parent :: rest).count id = [parent].count id + rest.count id := by
      rw [← List.count_append]
      rfl
    rw [List.foldl_cons, inductionHypothesis, getElem?_addChild, Option.map_map, sum]
    congr 1
    funext count
    exact Nat.add_assoc _ _ _

/-- At first all of the nodes count zero, and nothing else changes. -/
theorem getElem?_foldl_insert (nodes : List Node) (counts : Remaining) (id : ObjectId) :
    (nodes.foldl (fun counts node => counts.insert node.id 0) counts)[id]? =
      if id ∈ nodes.map Node.id then some 0 else counts[id]? := by
  induction nodes generalizing counts with
  | nil => simp
  | cons node rest inductionHypothesis =>
    rw [List.foldl_cons, inductionHypothesis, getElem?_insert]
    by_cases later : id ∈ rest.map Node.id
    · simp [later]
    · by_cases same : node.id = id
      · simp [same]
      · have absent : id ∉ (node :: rest).map Node.id := by
          simpa [Ne.symm same] using later
        simp only [later, same, absent, if_false]

/-- Each of the nodes is counted with the number of links to it. -/
theorem getElem?_childCounts (nodes : List Node) (id : ObjectId) :
    (childCounts nodes)[id]? =
      if id ∈ nodes.map Node.id then some (links nodes id) else none := by
  rw [childCounts, getElem?_foldl_addChild, getElem?_foldl_insert]
  by_cases member : id ∈ nodes.map Node.id
  · simp [member, links]
  · simp [member]

end Counts

namespace State

variable {state : State} {waits : List Node} {owed : List ObjectId} {node : Node}

/-- What is missing is what is still counted, and nothing where nothing is counted. -/
theorem missing_eq (state : State) (id : ObjectId) :
    state.missing id = state.remaining[id]?.getD 0 :=
  Std.TreeMap.getD_eq_getD_getElem?

section moves

/-- The state in which a parent has been told of a child. -/
def told (state : State) (parent : ObjectId) (count : Nat) : State :=
  { state with remaining := state.remaining.insert parent (count - 1) }

/-- The state in which a node that was held back is next. -/
def unheld (state : State) (node : Node) : State :=
  { state with held := state.held.erase node.id, queue := node :: state.queue }

/-- A parent that was told of a child misses one less, and no other commit does. -/
theorem missing_told (state : State) (parent id : ObjectId) (count : Nat) :
    (state.told parent count).missing id =
      if parent = id then count - 1 else state.missing id := by
  rw [missing_eq, missing_eq]
  change (state.remaining.insert parent (count - 1))[id]?.getD 0 = _
  rw [getElem?_insert]
  split <;> rfl

/-- Nothing misses more after a parent was told. -/
theorem told_fewer {parent : ObjectId} {count : Nat}
    (counts : state.remaining[parent]? = some count) (id : ObjectId) :
    (state.told parent count).missing id ≤ state.missing id := by
  rw [missing_told]
  split
  · rename_i same
    rw [← same, missing_eq, counts]
    exact Nat.sub_le count 1
  · exact Nat.le_refl _

/-- All that a release can do: the parent is not counted, or it is told of a child and stays
where it is, or it was held back for this child and comes next. -/
inductive Released (state : State) (parent : ObjectId) : State → Prop where
  | uncounted (foreign : state.remaining[parent]? = none) : Released state parent state
  | told {count : Nat} (counts : state.remaining[parent]? = some count)
      (stays : count - 1 = 0 → state.held[parent]? = none) :
      Released state parent (state.told parent count)
  | next {count : Nat} {node : Node} (counts : state.remaining[parent]? = some count)
      (last : count - 1 = 0) (holds : state.held[parent]? = some node) (named : node.id = parent) :
      Released state parent ((state.told parent count).unheld node)

/-- A release does that wherever nodes are held back under their own identifiers. -/
theorem release_released (parent : ObjectId)
    (named : ∀ node, state.held[parent]? = some node → node.id = parent) :
    Released state parent (state.release parent) := by
  cases counts : state.remaining[parent]? with
  | none =>
    have ran : state.release parent = state := by simp [release, counts]
    rw [ran]
    exact .uncounted counts
  | some count =>
    by_cases last : count - 1 = 0
    · cases holds : state.held[parent]? with
      | none =>
        have ran : state.release parent = state.told parent count := by
          simp [release, counts, last, holds, State.told]
        rw [ran]
        exact .told counts fun _ => holds
      | some node =>
        have same := named node holds
        have ran : state.release parent = (state.told parent count).unheld node := by
          simp [release, counts, last, holds, State.told, unheld, same]
        rw [ran]
        exact .next counts last holds same
    · have ran : state.release parent = state.told parent count := by
        simp [release, counts, last, State.told]
      rw [ran]
      exact .told counts fun free => absurd free last

/-- With an empty queue the sort is over. -/
theorem run_empty (most : Nat) (empty : state.queue = []) :
    state.run most = ([], state.held.values) := by
  obtain ⟨remaining, held, queue⟩ := state
  obtain rfl : queue = [] := empty
  cases most <;> rfl

/-- A node that misses children is held back. -/
theorem run_hold {rest : List Node} (most : Nat) (first : state.queue = node :: rest)
    (misses : 0 < state.missing node.id) :
    state.run (most + 1) = (({ state with queue := rest } : State).hold node).run most := by
  obtain ⟨remaining, held, queue⟩ := state
  obtain rfl : queue = node :: rest := first
  exact if_pos misses

/-- A node that misses none is next, and its parents are told. -/
theorem run_take {rest : List Node} (most : Nat) (first : state.queue = node :: rest)
    (free : ¬ 0 < state.missing node.id) :
    state.run (most + 1) =
      (node :: ((node.parents.foldl release { state with queue := rest }).run most).1,
        ((node.parents.foldl release { state with queue := rest }).run most).2) := by
  obtain ⟨remaining, held, queue⟩ := state
  obtain rfl : queue = node :: rest := first
  exact if_neg free

end moves

section tally

/-- The counts of a state are right. Here `waits` are the nodes that are held back, with any
that another one of the same identifier has replaced, and `owed` are the parents of the node
that came last which have not been told of it. -/
structure Tallied (state : State) (waits : List Node) (owed : List ObjectId) : Prop where
  counted : ∀ id count, state.remaining[id]? = some count →
    count = owed.count id + links (state.queue ++ waits) id
  among : ∀ id node, state.held[id]? = some node → node ∈ waits ∧ node.id = id

/-- A parent that is to be told of a child has a count that can be lowered. -/
theorem Tallied.positive {parent : ObjectId} {count : Nat}
    (tallied : state.Tallied waits (parent :: owed))
    (counts : state.remaining[parent]? = some count) : 0 < count := by
  have before := tallied.counted parent count counts
  rw [List.count_cons_self] at before
  omega

/-- A parent that is not counted need not be told. -/
theorem Tallied.skip {parent : ObjectId} (tallied : state.Tallied waits (parent :: owed))
    (foreign : state.remaining[parent]? = none) : state.Tallied waits owed := by
  refine ⟨fun id count found => ?_, tallied.among⟩
  have other : parent ≠ id := by
    rintro rfl
    rw [foreign] at found
    cases found
  have counted := tallied.counted id count found
  rwa [List.count_cons_of_ne other] at counted

/-- Telling a parent settles what it is owed. -/
theorem Tallied.told {parent : ObjectId} {count : Nat}
    (tallied : state.Tallied waits (parent :: owed))
    (counts : state.remaining[parent]? = some count) :
    (state.told parent count).Tallied waits owed := by
  refine ⟨fun id other found => ?_, tallied.among⟩
  change (state.remaining.insert parent (count - 1))[id]? = some other at found
  change other = owed.count id + links (state.queue ++ waits) id
  rw [getElem?_insert] at found
  by_cases same : parent = id
  · subst same
    rw [if_pos rfl] at found
    have before := tallied.counted parent count counts
    rw [List.count_cons_self] at before
    obtain rfl := Option.some.inj found
    omega
  · rw [if_neg same] at found
    have before := tallied.counted id other found
    rwa [List.count_cons_of_ne same] at before

/-- The nodes that have not come stay the same when one of them comes next. -/
theorem unheld_perm (state : State) (node : Node) (before after : List Node) :
    (state.queue ++ (before ++ node :: after)).Perm
      ((state.unheld node).queue ++ (before ++ after)) := by
  have front : (before ++ node :: after).Perm (node :: (before ++ after)) := List.perm_middle
  exact (front.append_left state.queue).trans List.perm_middle

/-- A node that is next is held back no longer. -/
theorem getElem?_unheld (state : State) (node : Node) (id : ObjectId) :
    (state.unheld node).held[id]? = if node.id = id then none else state.held[id]? := by
  change (state.held.erase node.id)[id]? = _
  simp only [Std.TreeMap.getElem?_erase, Std.LawfulEqCmp.compare_eq_iff_eq]

/-- A node that was held back can come next. -/
theorem Tallied.unheld {before after : List Node}
    (tallied : state.Tallied (before ++ node :: after) owed) :
    (state.unheld node).Tallied (before ++ after) owed := by
  refine ⟨fun id count found => ?_, fun id other holds => ?_⟩
  · rw [tallied.counted id count found, links_perm (unheld_perm state node before after)]
  · rw [getElem?_unheld] at holds
    by_cases same : node.id = id
    · rw [if_pos same] at holds
      cases holds
    · rw [if_neg same] at holds
      obtain ⟨member, named⟩ := tallied.among id other holds
      have different : other ≠ node := by
        rintro rfl
        exact same named
      simp only [List.mem_append, List.mem_cons, different, false_or] at member
      exact ⟨List.mem_append.mpr member, named⟩

/-- A release keeps the counts right. Where nothing is held back it moves no node. -/
theorem Tallied.release {parent : ObjectId} (tallied : state.Tallied waits (parent :: owed)) :
    ∃ left, (state.release parent).Tallied left owed ∧
      (waits = [] → left = [] ∧ (state.release parent).queue = state.queue) := by
  have released : Released state parent (state.release parent) :=
    release_released parent fun node holds => (tallied.among parent node holds).2
  generalize state.release parent = after at released
  cases released with
  | uncounted foreign => exact ⟨waits, tallied.skip foreign, fun none => ⟨none, rfl⟩⟩
  | told counts => exact ⟨waits, tallied.told counts, fun none => ⟨none, rfl⟩⟩
  | @next count node counts last holds named =>
    obtain ⟨before, after, rfl⟩ := List.append_of_mem (tallied.among parent node holds).1
    refine ⟨before ++ after, (tallied.told counts).unheld, fun none => ?_⟩
    simp at none

/-- A node that misses children waits. -/
theorem Tallied.hold {rest : List Node} (tallied : state.Tallied waits [])
    (first : state.queue = node :: rest) :
    (({ state with queue := rest } : State).hold node).Tallied (node :: waits) [] := by
  refine ⟨fun id count found => ?_, fun id other holds => ?_⟩
  · have moved : (state.queue ++ waits).Perm (rest ++ node :: waits) := by
      rw [first]
      exact List.perm_middle.symm
    rw [tallied.counted id count found, links_perm moved]
    rfl
  · change (state.held.insert node.id node)[id]? = some other at holds
    simp only [Std.TreeMap.getElem?_insert, Std.LawfulEqCmp.compare_eq_iff_eq] at holds
    by_cases same : node.id = id
    · rw [if_pos same] at holds
      obtain rfl := Option.some.inj holds
      exact ⟨List.mem_cons_self, same⟩
    · rw [if_neg same] at holds
      obtain ⟨member, named⟩ := tallied.among id other holds
      exact ⟨List.mem_cons_of_mem node member, named⟩

/-- A node that comes owes its parents. -/
theorem Tallied.take {rest : List Node} (tallied : state.Tallied waits [])
    (first : state.queue = node :: rest) :
    ({ state with queue := rest } : State).Tallied waits node.parents := by
  refine ⟨fun id count found => ?_, tallied.among⟩
  have counted := tallied.counted id count found
  rwa [first, List.cons_append, links_cons, List.count_nil, Nat.zero_add] at counted

end tally

section checked

/-- Tells a parent of a child, unless no child of it is left. -/
def release? (state : State) (parent : ObjectId) : Option State :=
  if state.remaining[parent]? = some 0 then none else some (state.release parent)

/-- As `run`, but it gives up where a count would fall below zero. -/
def run? : (most : Nat) → State → Option (List Node × List Node)
  | most, state =>
    match state.queue, most with
    | [], _ => some ([], state.held.values)
    | _ :: _, 0 => some ([], state.held.values)
    | node :: rest, most + 1 =>
      let state := { state with queue := rest }
      if 0 < state.missing node.id then run? most (state.hold node)
      else
        match node.parents.foldlM release? state with
        | none => none
        | some state =>
          (run? most state).map fun (sorted, held) => (node :: sorted, held)

/-- Every parent of a node can be told of it. -/
theorem Tallied.releases (parents : List ObjectId) (tallied : state.Tallied waits parents) :
    parents.foldlM State.release? state = some (parents.foldl State.release state) ∧
      ∃ left, (parents.foldl State.release state).Tallied left [] ∧
        (waits = [] → left = [] ∧ (parents.foldl State.release state).queue = state.queue) := by
  induction parents generalizing state waits with
  | nil => exact ⟨rfl, waits, tallied, fun none => ⟨none, rfl⟩⟩
  | cons parent rest inductionHypothesis =>
    have lowered : state.release? parent = some (state.release parent) := by
      refine if_neg fun spent => ?_
      exact absurd (tallied.positive spent) (Nat.lt_irrefl 0)
    obtain ⟨between, first, idle⟩ := tallied.release
    obtain ⟨checked, left, others, stillIdle⟩ := inductionHypothesis first
    refine ⟨?_, left, others, fun none => ?_⟩
    · rw [List.foldlM_cons, lowered]
      exact checked
    · obtain ⟨rfl, queue⟩ := idle none
      obtain ⟨nothing, still⟩ := stillIdle rfl
      exact ⟨nothing, still.trans queue⟩

/-- Where the counts are right none of them is ever lowered below zero. -/
theorem Tallied.run?_eq (most : Nat) (tallied : state.Tallied waits []) :
    state.run? most = some (state.run most) := by
  induction most generalizing state waits with
  | zero =>
    obtain ⟨remaining, held, queue⟩ := state
    cases queue <;> rfl
  | succ most inductionHypothesis =>
    obtain ⟨remaining, held, queue⟩ := state
    cases queue with
    | nil => rfl
    | cons node rest =>
      by_cases misses : 0 < (State.mk remaining held (node :: rest)).missing node.id
      · rw [run_hold most rfl misses, ← inductionHypothesis (tallied.hold rfl)]
        exact if_pos misses
      · obtain ⟨checked, left, others, _⟩ := Tallied.releases node.parents (tallied.take rfl)
        have rest := inductionHypothesis others
        rw [run_take most rfl misses]
        refine (if_neg misses).trans ?_
        simp only [checked, rest]
        rfl

end checked

end State

/-- The sort starts with right counts. -/
theorem tallied_start (nodes : List Node) :
    State.Tallied ⟨childCounts nodes, ∅, nodes⟩ [] [] := by
  refine ⟨fun id count found => ?_, fun id node holds => ?_⟩
  · change (childCounts nodes)[id]? = some count at found
    rw [getElem?_childCounts] at found
    split at found
    · simpa using (Option.some.inj found).symm
    · cases found
  · simp at holds

/-- As `sort`, but it gives up where a count would fall below zero. -/
def sort? (nodes : List Node) : Option (List Node × List Node) :=
  State.run? (2 * nodes.length) ⟨childCounts nodes, ∅, nodes⟩

/-- No count ever falls below zero, whatever nodes are sorted. -/
theorem sort?_eq (nodes : List Node) : sort? nodes = some (sort nodes) :=
  (tallied_start nodes).run?_eq (2 * nodes.length)

section following

/-- Every node comes after all of its children. -/
def Follows (nodes : List Node) : Prop :=
  ∀ before node after, nodes = before ++ node :: after →
    ∀ child ∈ node :: after, node.id ∉ child.parents

/-- The first of such nodes has no child, and the rest are such nodes again. -/
theorem follows_cons {node : Node} {rest : List Node} (follows : Follows (node :: rest)) :
    (∀ child ∈ node :: rest, node.id ∉ child.parents) ∧ Follows rest := by
  refine ⟨follows [] node rest rfl, fun before other after split => ?_⟩
  exact follows (node :: before) other after (congrArg (node :: ·) split)

/-- Where nothing is held back there are no values. -/
theorem values_nil {held : Std.TreeMap ObjectId Node} (vacant : ∀ id : ObjectId, held[id]? = none) :
    held.values = [] := by
  have same : held.Equiv ∅ := Std.TreeMap.Equiv.of_forall_constGet?_eq (by simpa using vacant)
  rw [same.values_eq]
  rfl

/-- Where no node waits none is held back. -/
theorem State.Tallied.vacant {state : State} {owed : List ObjectId}
    (tallied : state.Tallied [] owed) (id : ObjectId) : state.held[id]? = none := by
  refine Option.eq_none_iff_forall_not_mem.mpr fun node holds => ?_
  exact List.not_mem_nil (tallied.among id node holds).1

/-- Where every node comes after its children, all of them come in their sequence. -/
theorem State.run_follows {state : State} (most : Nat) (tallied : state.Tallied [] [])
    (enough : state.queue.length ≤ most) (follows : Follows state.queue) :
    state.run most = (state.queue, []) := by
  induction most generalizing state with
  | zero =>
    have empty := List.length_eq_zero_iff.mp (Nat.le_zero.mp enough)
    rw [run_empty 0 empty, empty, values_nil tallied.vacant]
  | succ most inductionHypothesis =>
    cases first : state.queue with
    | nil => rw [run_empty (most + 1) first, values_nil tallied.vacant]
    | cons node rest =>
      rw [first] at enough follows
      obtain ⟨childless, later⟩ := follows_cons follows
      have free : ¬ 0 < state.missing node.id := by
        rw [missing_eq]
        cases counts : state.remaining[node.id]? with
        | none => exact Nat.lt_irrefl 0
        | some count =>
          have counted := tallied.counted node.id count counts
          rw [List.count_nil, Nat.zero_add, List.append_nil, first] at counted
          rw [Option.getD_some, counted, links_pos]
          rintro ⟨child, member, named⟩
          exact childless child member named
      obtain ⟨_, left, others, idle⟩ := Tallied.releases node.parents (tallied.take first)
      obtain ⟨rfl, queue⟩ := idle rfl
      have short : rest.length ≤ most := by simpa using enough
      have rested := inductionHypothesis others (queue ▸ short) (queue ▸ later)
      rw [run_take most first free, rested, queue]

/-- Nodes that come after their children are left as they are, and none is held back. -/
theorem sort_follows {nodes : List Node} (follows : Follows nodes) : sort nodes = (nodes, []) := by
  have enough : nodes.length ≤ 2 * nodes.length := by omega
  exact State.run_follows (2 * nodes.length) (tallied_start nodes) enough follows

end following

end Ancestry.Topological
