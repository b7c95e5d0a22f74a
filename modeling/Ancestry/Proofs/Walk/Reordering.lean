import Ancestry.Proofs.Walk.Permuting
import Ancestry.Proofs.Walk.Precedence
import Mathlib.Data.List.Permutation

/-!
# Orders rearrange

Walks that differ in nothing but the order that they are asked for visit the same commits, and
their filters decide the same. Where the walk by time ends without a fault, the others give what
it gives: reversed, or with every commit after its children, or both. In a history without
cycles nothing stays held back.
-/

namespace Ancestry.Walk

variable {source : Source} {settings : List Setting} {order : Order} {walk between : Walk}
  {graph kept : Graph} {shown given : List Node} {ending last : Option Fault}

/-- What the pass of a new walk comes to that is given some settings and then an order. -/
def OrderedPass (source : Source) (settings : List Setting) (order : Order) (graph : Graph)
    (given : List Node) (ending : Option Fault) (after : Walk) : Prop :=
  ∃ kept, Pass source (configure source (settings ++ [.order order]) {} graph).1
    (configure source (settings ++ [.order order]) {} graph).2 given ending after kept

/-- Some settings are made, and then the others. -/
theorem configure_append (settings others : List Setting) (walk : Walk) (graph : Graph) :
    configure source (settings ++ others) walk graph =
      configure source others (configure source settings walk graph).1
        (configure source settings walk graph).2 := by
  induction settings generalizing walk graph with
  | nil => rfl
  | cons setting rest inductionHypothesis =>
    rw [List.cons_append, configure, configure]
    exact inductionHypothesis _ _

/-- An order that comes last is the order of the walk. -/
theorem orderOf_last (settings : List Setting) (order : Order) :
    Setting.orderOf (settings ++ [.order order]) = order := by
  simp [Setting.orderOf, Setting.orderOr, Setting.order?]

/-- It changes no filter. -/
theorem filterOf_last (settings : List Setting) (order : Order) :
    Setting.filterOf (settings ++ [.order order]) = Setting.filterOf settings := by
  simp [Setting.filterOf, Setting.filterOr, Setting.filter?]

/-- Nor does it change the state from which a traversal starts. -/
theorem configure_state (settings : List Setting) (order : Order)
    (faithful : graph.Faithful source) :
    SameState (configure source settings {} graph).1
      (configure source (settings ++ [.order order]) {} graph).1 := by
  have ran : setOrder order (configure source settings {} graph).1
      (configure source settings {} graph).2 =
      (.ok (), { (configure source settings {} graph).1 with order },
        (configure source settings {} graph).2) :=
    if_pos (configure_new settings faithful).1.marked.phase
  simp only [configure_append, configure, Setting.action, ran]
  exact choice_state _ _ order

/-- A walk in any order presents what its filter selects from one course. -/
theorem Course.orders
    (course : Course source (configure source settings {} graph).1 shown ending)
    (faithful : graph.Faithful source)
    (selects : (Setting.filterOf settings).select source ending shown = (given, last))
    (order : Order) :
    ∃ after, OrderedPass source settings order graph (order.presented given last).1
      (order.presented given last).2 after := by
  obtain ⟨ready, stillFaithful⟩ := configure_new (settings ++ [.order order]) faithful
  obtain ⟨after, kept, pass, _⟩ :=
    (course.congr (configure_state settings order faithful)).presents ready.marked ready.output
      stillFaithful
  have sameOrder := ready.order.trans (orderOf_last settings order)
  have sameFilter := ready.filter.trans (filterOf_last settings order)
  rw [sameOrder, sameFilter, selects] at pass
  exact ⟨after, kept, pass⟩

/-- Collecting holds no commit back, and arranging holds back only what the topological order
leaves out. -/
theorem Gathers.frees (gathers : Gathers (nextByTime source) walk graph given between kept)
    (free : ∀ id, (walk.marksOf id).delayed = false)
    (whole : walk.order.topological = true → (Topological.sort given).2 = []) :
    ∀ id, ((between.arrange given).2.marksOf id).delayed = false := by
  have respects : Respects (Alike fun _ => false) (nextByTime source) := nextByTime_respects
  have agree := collectBy_respects respects ObjectId.total walk.running walk.running graph
    ⟨rfl, rfl, rfl, fun _ => rfl, rfl, rfl, rfl, free⟩
  rw [gathers.collected] at agree
  have order : between.order = walk.order :=
    (arrange_pass between given).order.symm.trans gathers.pass.order
  rw [arrange_walk, order]
  by_cases topological : walk.order.topological = true
  · rw [if_pos topological, whole topological]
    exact agree.walk.held
  · rw [if_neg topological]
    exact agree.walk.held

/-- Where the walk by time ends without a fault, the walk that needs all commits arranges what
that gives, and holds none of them back in the end. -/
theorem Course.rearranges
    (course : Course source (configure source settings {} graph).1 shown ending)
    (faithful : graph.Faithful source)
    (selects : (Setting.filterOf settings).select source ending shown = (given, none))
    (order : Order) (all : order.needsAll = true)
    (whole : order.topological = true → (Topological.sort given).2 = []) :
    ∃ after, OrderedPass source settings order graph (order.arranged given) none after ∧
      ∀ id, (after.marksOf id).delayed = false := by
  obtain ⟨ready, stillFaithful⟩ := configure_new (settings ++ [.order order]) faithful
  have unused := configure_unused (settings ++ [.order order])
    (marked_new source .everything {}) (unused_new .everything {}) faithful
  have sameOrder := ready.order.trans (orderOf_last settings order)
  have sameFilter := ready.filter.trans (filterOf_last settings order)
  rw [← sameOrder] at all whole
  rw [← sameFilter] at selects
  have sameCourse := course.congr (configure_state settings order faithful)
  rcases nextByTime_answering.gathers sameCourse ready.marked all stillFaithful selects with
    failed | collected
  · obtain ⟨_, _, _, impossible, _⟩ := failed
    cases impossible
  · obtain ⟨_, between, kept, gathers⟩ := collected
    obtain ⟨after, passes, _, marks, _⟩ := gathers.passes
    rw [requestBy_next, sameOrder] at passes
    refine ⟨after, ⟨kept, passBy_next.mp passes⟩, fun id => ?_⟩
    have free := gathers.frees (fun id => (unused id).2.2) whole id
    rwa [marksOf, marks]

/-- Walks that differ in their orders alone, whatever they start from and hide, and whatever their
filter is. In a history without cycles, where the pass by time ends without a fault, the pass in
topological order gives the same commits, each of them after all of its children that are given,
and leaves none held back. The reversed pass gives the commits by time back to front, and the
reversed topological one those of the topological pass. In the topological sort no count of
children is lowered below zero, whatever it sorts, cycles included.

Proof: all of these passes follow one course, and differ in how they present what the filter selects
from it. The sort gives back all of its nodes as every child has its turn. -/
theorem orders_rearrange (source : Source) :
    (∀ nodes, Topological.sort? nodes = some (Topological.sort nodes)) ∧
      ∀ (settings : List Setting) (graph : Graph) (byTime : List Node) (after : Walk),
        graph.Faithful source → source.Acyclic (Setting.commits settings) →
        OrderedPass source settings {} graph byTime none after →
        ∃ sorted : List Node, sorted.Perm byTime ∧ Topological.Ordered sorted ∧
          (∃ last, OrderedPass source settings { topological := true } graph sorted none last ∧
            ∀ id, (last.marksOf id).delayed = false) ∧
          (∃ last,
            OrderedPass source settings { reversed := true } graph byTime.reverse none last) ∧
          ∃ last, OrderedPass source settings { topological := true, reversed := true } graph
            sorted.reverse none last ∧ ∀ id, (last.marksOf id).delayed = false := by
  refine ⟨Topological.sort?_eq, fun settings graph byTime after faithful acyclic pass => ?_⟩
  obtain ⟨ready, _⟩ := configure_new settings faithful
  have settled := ready.marked.settled
  obtain ⟨shown, ending, course⟩ := exists_course settled.consistent
  rcases selects : (Setting.filterOf settings).select source ending shown with ⟨given, last⟩
  -- The pass by time is the only one, so that it gives what the filter selects.
  obtain ⟨rfl, rfl⟩ : given = byTime ∧ last = none := by
    obtain ⟨other, kept, again⟩ := course.orders faithful selects {}
    obtain ⟨store, pass⟩ := pass
    rw [Order.presented_byTime rfl] at again
    obtain ⟨same, ends, _⟩ := again.unique pass
    exact ⟨same, ends⟩
  have sublist : ((Setting.filterOf settings).select source ending shown).1.Sublist shown :=
    (Setting.filterOf settings).select_sublist shown
  rw [selects] at sublist
  have distinct := (sublist.map Node.id).nodup (course.distinct settled.consistent)
  have known : ∀ node ∈ given, source.node node.id = .ok node ∧
      source.Reached (Setting.commits settings) node.id := by
    intro node member
    obtain ⟨resolved, reached⟩ := course.reached settled node (sublist.mem member)
    exact ⟨resolved, Source.reached_mono (fun root => Mark.roots_marked root) reached⟩
  obtain ⟨same, ordered, whole⟩ := Topological.sort_whole acyclic distinct known
  have arranges := course.rearranges faithful selects
  obtain ⟨backward, reversed, _⟩ := arranges { reversed := true } rfl nofun
  exact ⟨(Topological.sort given).1, same, ordered,
    arranges { topological := true } rfl fun _ => whole, ⟨backward, reversed⟩,
    arranges { topological := true, reversed := true } rfl fun _ => whole⟩

/-- Walks that differ in their orders alone, whatever they start from and hide, in a history in
which all commits resolve and none is older than its parents. The pass by time gives the latest
commits first, and it ends in a fault only if the filter fails on some commit that is reached. A
list in which every commit comes after its children is left by the topological sort as it is, so
that the topological pass gives the same where each commit is newer than its parents.

Proof: the queue is in the order of times, and no parent that is added is newer than the commit
that leaves it. In a list that is in order already each node has lost its last child when it is
its turn. -/
theorem latest_first (source : Source) :
    (∀ nodes, Topological.Follows nodes → Topological.sort nodes = (nodes, [])) ∧
      ∀ (settings : List Setting) (graph : Graph), graph.Faithful source →
        (∀ id, source.Reached (Setting.commits settings) id → source.Resolves id) →
        source.Recedes (Setting.commits settings) →
        ∃ given ending after, OrderedPass source settings {} graph given ending after ∧
          given.Pairwise (fun earlier later => later.time ≤ earlier.time) ∧
          (∀ fault, ending = some fault →
            ∃ node state, source.Reached (Setting.commits settings) node.id ∧
              source.node node.id = .ok node ∧
              Filter.fresh state = (Setting.filterOf settings).fresh ∧
              (state.answer source node).1 = .error fault) ∧
          (source.Descends (Setting.commits settings) → ending = none →
            ∃ last,
              OrderedPass source settings { topological := true } graph given none last) := by
  refine ⟨fun _ => Topological.sort_follows, fun settings graph faithful resolves recedes => ?_⟩
  obtain ⟨ready, _⟩ := configure_new settings faithful
  have settled := ready.marked.settled
  have wider : ∀ id, source.Reached (Mark.roots source (Setting.marks settings)) id →
      source.Reached (Setting.commits settings) id :=
    fun id => Source.reached_mono Mark.roots_marked
  obtain ⟨shown, ending, course⟩ := exists_course settled.consistent
  obtain rfl := course.clean settled fun id reached => resolves id (wider id reached)
  have known := course.reached settled
  rcases selects : (Setting.filterOf settings).select source none shown with ⟨given, last⟩
  obtain ⟨after, pass⟩ := course.orders faithful selects {}
  rw [Order.presented_byTime rfl] at pass
  have sublist : ((Setting.filterOf settings).select source none shown).1.Sublist shown :=
    (Setting.filterOf settings).select_sublist shown
  rw [selects] at sublist
  have falls := (course.falls settled (recedes.mono Mark.roots_marked)).sublist sublist
  refine ⟨given, last, after, pass, falls, fun fault failed => ?_, fun descends clean => ?_⟩
  · have sifted := Filter.select_fault (by rw [selects, failed])
    obtain ⟨node, member, state, same, fails⟩ := Filter.sift_fault sifted
    exact ⟨node, state, wider _ (known node member).2, (known node member).1, same, fails⟩
  · subst clean
    have follows := (follows_falls descends
      (fun node member => ⟨(known node (sublist.mem member)).1,
        wider _ (known node (sublist.mem member)).2⟩) falls).1
    obtain ⟨last, topological⟩ := course.orders faithful selects { topological := true }
    rw [Order.presented_none, Order.arranged, Topological.sort_follows follows] at topological
    exact ⟨last, topological⟩

/-- With one tip of the fork hidden, the pass without merges is the same in both orders. -/
theorem latest_first_fork :
    ∃ given after last,
      OrderedPass fork [.mark (.hide (.uniform 2)), .filter .noMerges, .mark (.start (.uniform 3))]
        {} {} given none after ∧
      given.Pairwise (fun earlier later => later.time ≤ earlier.time) ∧
      OrderedPass fork [.mark (.hide (.uniform 2)), .filter .noMerges, .mark (.start (.uniform 3))]
        { topological := true } {} given none last := by
  obtain ⟨given, ending, after, pass, falls, faults, same⟩ := (latest_first fork).2
    [.mark (.hide (.uniform 2)), .filter .noMerges, .mark (.start (.uniform 3))] {}
    (Graph.faithful_empty fork) (fork_resolves (by decide)) (fork_descends (by decide)).recedes
  cases ending with
  | none =>
    obtain ⟨last, topological⟩ := same (fork_descends (by decide)) rfl
    exact ⟨given, after, last, pass, falls, topological⟩
  | some fault =>
    obtain ⟨node, state, _, _, fresh, fails⟩ := faults fault rfl
    have merges : state.fresh = .noMerges := fresh
    cases state with
    | noMerges => cases fails
    | _ => cases merges

/-- A commit, and an older child that names it twice. -/
def skewed : Source := .bare [(.uniform 1, [], 5), (.uniform 2, [.uniform 1, .uniform 1], 3)]

/-- Starts from both commits. -/
def skewing : List Setting := [.mark (.start (.uniform 1)), .mark (.start (.uniform 2))]

/-- The node of the commit. -/
def skewedFirst : Node := ⟨.uniform 1, .zero, [], 5⟩

/-- The node of its child. -/
def skewedSecond : Node := ⟨.uniform 2, .zero, [.uniform 1, .uniform 1], 3⟩

/-- Every step leads from the child to the commit. -/
theorem skewed_acyclic : skewed.Acyclic (Setting.commits skewing) := by
  have first : skewed.node (.uniform 1) = .ok skewedFirst :=
    Source.bare_node (by decide) (by decide)
  have second : skewed.node (.uniform 2) = .ok skewedSecond :=
    Source.bare_node (by decide) (by decide)
  have step : ∀ child parent : ObjectId, child = .uniform 1 ∨ child = .uniform 2 →
      skewed.Parent child parent → child = .uniform 2 ∧ parent = .uniform 1 := by
    rintro child parent (rfl | rfl) named
    · exact absurd ((Source.parent_iff first).mp named) List.not_mem_nil
    · exact ⟨rfl, by simpa [skewedSecond, Node.parents] using (Source.parent_iff second).mp named⟩
  refine Source.acyclic_of_rank (fun id => if id = .uniform 2 then 1 else 0) ?_
  intro child parent reached named
  have among : child = .uniform 1 ∨ child = .uniform 2 := by
    refine Source.reached_least (fun id => id = .uniform 1 ∨ id = .uniform 2) ?_ ?_ reached
    · exact fun root member => List.mem_pair.mp member
    · exact fun child parent known named => .inl (step child parent known named).2
  obtain ⟨rfl, rfl⟩ := step child parent among named
  decide

/-- By time the parent comes first, in topological order its child. -/
theorem orders_rearrange_skewed :
    (∃ after, OrderedPass skewed skewing {} {} [skewedFirst, skewedSecond] none after) ∧
      ∃ last, OrderedPass skewed skewing { topological := true } {} [skewedSecond, skewedFirst] none
        last ∧ ∀ id, (last.marksOf id).delayed = false := by
  obtain ⟨after, kept, byTime⟩ : ∃ after kept,
      Pass skewed (configure skewed (skewing ++ [.order {}]) {} {}).1
        (configure skewed (skewing ++ [.order {}]) {} {}).2 [skewedFirst, skewedSecond] none after
        kept := Pass.of_answers 3 (by decide) (by decide +kernel)
  obtain ⟨sorted, same, ordered, topological, _⟩ := (orders_rearrange skewed).2 skewing {}
    [skewedFirst, skewedSecond] after (Graph.faithful_empty skewed) skewed_acyclic ⟨kept, byTime⟩
  have either : sorted = [skewedFirst, skewedSecond] ∨ sorted = [skewedSecond, skewedFirst] :=
    List.mem_pair.mp (List.mem_permutations'.mpr same)
  refine ⟨⟨after, kept, byTime⟩, ?_⟩
  rcases either with rfl | rfl
  · exact absurd (List.pairwise_pair.mp ordered) (by decide)
  · exact topological

end Ancestry.Walk
