import Ancestry.Proofs.Stops
import Ancestry.Proofs.Walk.Collecting
import Ancestry.Proofs.Walk.Times

/-!
# Walks that are not stopped

A walk may stop when its filter says so, and it ends early when only hidden commits wait.
Here is a walk that does neither: a stop is to it no more than an exclusion, and it visits
commits until its queue is empty. Where no commit is older than its parents both give the
same commits, in whatever order they are asked for, so that stopping only saves work.
-/

namespace Ancestry.Walk

variable {source : Source} {walk met : Walk} {graph : Graph} {node : Node}
  {rest shown : List Node} {roots hidden : List ObjectId}

/-- Asks the filter whether it includes a node. Where it would stop the walk the node is
only excluded. -/
def consult (source : Source) (node : Node) : Action Bool :=
  fun walk graph =>
    match judge source node walk graph with
    | (.error fault, walk, graph) => (.error fault, walk, graph)
    | (.ok .include, walk, graph) =>
      (.ok true, walk.mark node.id ({ · with emitted := true }), graph)
    | (.ok _, walk, graph) => (.ok false, walk, graph)

/-- Visits the first pending node, and says whether it is given. Nothing ends the pass. -/
def attend (source : Source) (node : Node) : Action Bool :=
  fun walk graph =>
    let hidden := (walk.marksOf node.id).uninteresting
    match expand source node hidden (walk.dequeue hidden) graph with
    | (.error fault, walk, graph) => (.error fault, walk, graph)
    | (.ok (), walk, graph) =>
      if hidden then (.ok false, walk, graph) else consult source node walk graph

/-- The commits that are given until the queue is empty, where at most `most` commits are
visited. -/
def exhaust (source : Source) : (most : Nat) → Action (List Node)
  | most, walk, graph =>
    match walk.pending with
    | [] => (.ok [], walk, graph)
    | node :: _ =>
      match most with
      | 0 => (.ok [], walk, graph)
      | most + 1 =>
        match attend source node walk graph with
        | (.error fault, walk, graph) => (.error fault, walk, graph)
        | (.ok given, walk, graph) =>
          match exhaust source most walk graph with
          | (.error fault, walk, graph) => (.error fault, walk, graph)
          | (.ok nodes, walk, graph) =>
            (.ok (if given then node :: nodes else nodes), walk, graph)

/-- The filter's answer, as far as the walk that is not stopped hears it. -/
def admitted : Outcome → Bool
  | .include => true
  | .exclude | .stop => false

/-- What is left of a list whose first commit the filter answered about. -/
theorem sift_answered {filter next : Filter} {outcome : Outcome} {later : List Node}
    (answered : filter.answer source node = (.ok outcome, next)) :
    filter.sift source (node :: later) =
      (next.sift source later).map fun nodes =>
        if admitted outcome then node :: nodes else nodes := by
  rw [Filter.sift, answered]
  cases outcome with
  | «include» => rfl
  | exclude | stop =>
    simp only [admitted, Bool.false_eq_true, if_false]
    rcases next.sift source later with fault | nodes <;> rfl

/-- Asking about a node gives the filter's answer and changes nothing that steers. -/
theorem consult_consults (walk : Walk) (faithful : graph.Faithful source)
    (resolved : source.node node.id = .ok node) :
    ∃ after kept,
      consult source node walk graph =
        ((walk.filter.answer source node).1.map admitted, after, kept) ∧
      kept.Faithful source ∧ SameState walk after ∧
      after.filter = (walk.filter.answer source node).2 := by
  obtain ⟨asked, kept, judged, faithful, same, _, filter⟩ := judge_answers walk faithful resolved
  rcases answer : (walk.filter.answer source node).1 with fault | outcome
  · exact ⟨asked, kept, by simp [consult, judged, answer, Except.map], faithful, same, filter⟩
  · cases outcome with
    | «include» =>
      have marked := mark_state asked node.id ({ · with emitted := true }) fun _ => ⟨rfl, rfl, rfl⟩
      exact ⟨asked.mark node.id ({ · with emitted := true }), kept,
        by simp [consult, judged, answer, admitted, Except.map], faithful, same.trans marked,
        filter⟩
    | exclude | stop =>
      exact ⟨asked, kept, by simp [consult, judged, answer, admitted, Except.map], faithful, same,
        filter⟩

/-- What a visit does that does not end the pass: it fails at a parent that does not
resolve, passes a hidden commit over, or hears the filter about any other. -/
inductive Attends (source : Source) (node : Node) (before : Walk) :
    Except Fault Bool → Walk → Prop where
  | stuck {fault : Fault} {after : Walk}
      (unresolved : enlist source node.parents before.knows before.pending.tail = .error fault) :
      Attends source node before (.error fault) after
  | passed {met : Walk} (advances : Advances source node before met)
      (veiled : before.Hidden node.id) (filter : met.filter = before.filter) :
      Attends source node before (.ok false) met
  | heard {met : Walk} (advances : Advances source node before met)
      (visible : ¬ before.Hidden node.id)
      (filter : met.filter = (before.filter.answer source node).2) :
      Attends source node before ((before.filter.answer source node).1.map admitted) met

/-- A visit that does not end the pass is one of the three kinds. -/
theorem attend_attends (consistent : walk.Consistent source) (faithful : graph.Faithful source)
    (first : walk.pending = node :: rest) :
    ∃ result after kept, attend source node walk graph = (result, after, kept) ∧
      kept.Faithful source ∧ Attends source node walk result after := by
  obtain ⟨result, met, kept, ran, faithful, unchanged, stuck | ⟨done, advances⟩⟩ :=
    expand_advances consistent faithful first
  · obtain ⟨fault, rfl, unresolved⟩ := stuck
    exact ⟨.error fault, met, kept, by simp [attend, ran], faithful, .stuck unresolved⟩
  · subst done
    by_cases veiled : (walk.marksOf node.id).uninteresting = true
    · refine ⟨.ok false, met, kept, ?_, faithful, .passed advances veiled unchanged.filter⟩
      simp only [attend, ran]
      rw [if_pos veiled]
    · have resolved := consistent.resolved node (by simp [first])
      obtain ⟨after, last, admits, faithful, same, filter⟩ := consult_consults met faithful resolved
      rw [unchanged.filter] at admits filter
      refine ⟨_, after, last, ?_, faithful, .heard (advances.congr same) veiled filter⟩
      simp only [attend, ran]
      rw [if_neg veiled, admits]

/-- The commits that are left to be shown when nothing ends the pass: those of the course,
and none where only hidden commits wait. -/
def Leaves (source : Source) (walk : Walk) (shown : List Node) : Prop :=
  Course source walk shown none ∨
    (shown = [] ∧ ∀ other ∈ walk.pending, walk.Hidden other.id)

/-- Where only hidden commits wait, only hidden commits wait after a visit: those that
waited before, and parents of a hidden commit. -/
theorem Advances.veiled (advances : Advances source node walk met)
    (settled : walk.Settled source roots hidden) (first : walk.pending = node :: rest)
    (all : ∀ other ∈ walk.pending, walk.Hidden other.id) :
    ∀ other ∈ met.pending, met.Hidden other.id := by
  have after := advances.settled settled
  have grown : ∀ id, walk.Visited id → met.Visited id := fun id visited =>
    (advances.visited id).mpr (.inl visited)
  have stays : ∀ id, walk.Hidden id → met.Hidden id :=
    settled.exact.hidden_mono after.exact grown
  intro other member
  rcases advances.joined settled.consistent first (List.mem_map_of_mem member) with waited | step
  · obtain ⟨known, inside, same⟩ := List.mem_map.mp waited
    have veiled := all known inside
    rw [same] at veiled
    exact stays other.id veiled
  · have veiled : met.Hidden node.id := stays node.id (all node (by simp [first]))
    have led := (after.exact.hidden node.id).mp veiled
    have visited : met.Visited node.id := (advances.visited node.id).mpr (.inr rfl)
    exact (after.exact.hidden other.id).mpr (Source.leads_step led visited step)

/-- A visit shows the first of the commits that are left, or none of them. -/
theorem Leaves.advance (leaves : Leaves source walk shown)
    (advances : Advances source node walk met) (settled : walk.Settled source roots hidden)
    (first : walk.pending = node :: rest) :
    (walk.Hidden node.id ∧ Leaves source met shown) ∨
      (¬ walk.Hidden node.id ∧ ∃ later, shown = node :: later ∧ Leaves source met later) := by
  rcases leaves with course | ⟨none, all⟩
  · rcases course.after settled first advances with
      ⟨veiled, all, none, _⟩ | ⟨veiled, _, course⟩ | ⟨visible, later, some, course⟩
    · exact .inl ⟨veiled, .inr ⟨none, all⟩⟩
    · exact .inl ⟨veiled, .inl course⟩
    · exact .inr ⟨visible, later, some, .inl course⟩
  · have veiled : walk.Hidden node.id := all node (by simp [first])
    exact .inl ⟨veiled, .inr ⟨none, advances.veiled settled first all⟩⟩

/-- With nothing in the queue nothing is left. -/
theorem Leaves.idle (leaves : Leaves source walk shown) (empty : walk.pending = []) :
    shown = [] := by
  rcases leaves with course | ⟨none, _⟩
  · cases course with
    | idle => rfl
    | early first | skipped first | shown first => simp [empty] at first
  · exact none

/-- A walk with nothing in its queue gives nothing and stays as it is. -/
theorem exhaust_idle (most : Nat) (empty : walk.pending = []) (leaves : Leaves source walk shown) :
    exhaust source most walk graph = (walk.filter.sift source shown, walk, graph) := by
  obtain rfl := leaves.idle empty
  cases most with
  | zero | succ _ =>
    rw [exhaust]
    simp only [empty]
    rfl

/-- A walk that is not stopped gives what its filter leaves of the commits that are to be
shown, and empties its queue. The induction is on the bound, which suffices as every visit
marks another identifier. -/
theorem exhaust_sifts (most : Nat) (settled : walk.Settled source roots hidden)
    (faithful : graph.Faithful source) (enough : ObjectId.unmarked walk.Visited ≤ most)
    (resolves : ∀ id, source.Reached roots id → source.Resolves id)
    (leaves : Leaves source walk shown) :
    ∃ after kept,
      exhaust source most walk graph = (walk.filter.sift source shown, after, kept) ∧
      ((walk.filter.sift source shown).isOk = true → after.pending = []) := by
  induction most generalizing walk graph shown with
  | zero =>
    cases first : walk.pending with
    | nil => exact ⟨walk, graph, exhaust_idle _ first leaves, fun _ => first⟩
    | cons node rest =>
      have left := ObjectId.unmarked_pos walk.Visited node.id (settled.consistent.waiting first).2
      omega
  | succ most inductionHypothesis =>
    cases first : walk.pending with
    | nil => exact ⟨walk, graph, exhaust_idle _ first leaves, fun _ => first⟩
    | cons node rest =>
      obtain ⟨result, met, kept, ran, faithful, attends⟩ :=
        attend_attends settled.consistent faithful first
      rw [exhaust]
      simp only [first, ran]
      cases attends with
      | stuck unresolved => exact absurd unresolved (settled.not_stuck resolves first _)
      | passed advances veiled filter =>
        have fewer := advances.fewer (settled.consistent.waiting first).2
        rcases leaves.advance advances settled first with ⟨_, leaves⟩ | ⟨visible, _⟩
        · obtain ⟨after, last, gives, emptied⟩ :=
            inductionHypothesis (advances.settled settled) faithful (by omega) leaves
          rw [filter] at gives emptied
          refine ⟨after, last, ?_, emptied⟩
          simp only [gives]
          rcases walk.filter.sift source shown with fault | nodes <;> rfl
        · exact absurd veiled visible
      | heard advances visible filter =>
        have fewer := advances.fewer (settled.consistent.waiting first).2
        rcases leaves.advance advances settled first with ⟨veiled, _⟩ | ⟨_, later, shows, remains⟩
        · exact absurd veiled visible
        · subst shows
          rcases answered : walk.filter.answer source node with ⟨fault | outcome, next⟩
          · exact ⟨met, kept, by simp [Filter.sift, answered, Except.map],
              by simp [Filter.sift, answered, Except.isOk, Except.toBool]⟩
          · obtain ⟨after, last, gives, emptied⟩ :=
              inductionHypothesis (advances.settled settled) faithful (by omega) remains
            rw [filter, answered] at gives emptied
            rw [sift_answered answered]
            simp only [Except.map] at gives emptied ⊢
            simp only [gives]
            rcases sifted : next.sift source later with fault | nodes
            · refine ⟨after, last, rfl, fun succeeds => ?_⟩
              cases succeeds
            · exact ⟨after, last, rfl, fun _ => emptied (by rw [sifted]; rfl)⟩

/-- Stopping loses nothing. After a stop a filter includes no commit that is not later,
whatever it is made of and whatever its counters are. So where all commits that are reached
resolve and none is older than its parents, a walk gives the same commits as one that takes
a stop for an exclusion and empties its queue, unless the filter fails on some commit.

Proof: a stop means that a part is spent for the time of the commit, and a spent part stays so for
all that is not later. Along a course where no commit is older than its parents all that comes after
is not later. -/
theorem stops_lose_nothing (source : Source) :
    (∀ (filter next : Filter) (node : Node) (graph kept : Graph),
      filter.judge source node graph = (.ok .stop, next, kept) →
      ∀ (later : List Node) (results : List (Except Fault Outcome)) (last : Filter),
        Filter.Asked source next later results last →
        (∀ other ∈ later, other.time ≤ node.time) → .ok .include ∉ results) ∧
    ∀ (settings : List Setting) (graph : Graph), graph.Faithful source →
      (∀ id, source.Reached (Setting.commits settings) id → source.Resolves id) →
      source.Recedes (Setting.commits settings) →
      ∃ result last kept,
        exhaust source ObjectId.total (configure source settings {} graph).1
          (configure source settings {} graph).2 = (result, last, kept) ∧
        ((∃ nodes, result = .ok nodes ∧ last.pending = [] ∧
            ∃ after store,
              Pass source (configure source settings {} graph).1
                (configure source settings {} graph).2
                ((Setting.orderOf settings).arranged nodes) none after store ∧
              next source after store = (.ok none, after, store)) ∨
          ∃ fault node state, result = .error fault ∧
            source.Reached (Setting.commits settings) node.id ∧
            source.node node.id = .ok node ∧
            Filter.fresh state = (Setting.filterOf settings).fresh ∧
            (state.answer source node).1 = .error fault) := by
  constructor
  · intro filter next node graph kept stopped later results last asked past
    have spent : (filter.judge source node graph).2.1.Spent node.time :=
      Filter.spent_of_stop graph (congrArg Prod.fst stopped)
    rw [stopped] at spent
    exact spent.asked asked past
  · intro settings graph faithful resolves recedes
    obtain ⟨ready, stillFaithful⟩ := configure_new settings faithful
    have all : Mark.resolving source (Setting.marks settings) = Setting.marks settings :=
      Mark.resolving_all fun mark member =>
        resolves mark.id (Source.reached_root (List.mem_map_of_mem member))
    have marked := ready.marked
    rw [Mark.roots, Mark.veiled, all, List.nil_append, List.nil_append] at marked
    have settled := marked.settled
    obtain ⟨shown, ending, course⟩ := exists_course marked.consistent
    obtain rfl := course.clean settled resolves
    obtain ⟨last, kept, gives, emptied⟩ := exhaust_sifts ObjectId.total settled stillFaithful
      (ObjectId.unmarked_le_total _) resolves (.inl course)
    have filter : (configure source settings {} graph).1.filter = Setting.filterOf settings :=
      ready.filter
    rw [filter] at gives emptied
    refine ⟨_, last, kept, gives, ?_⟩
    rcases sifted : (Setting.filterOf settings).sift source shown with fault | nodes
    · obtain ⟨node, member, state, same, fails⟩ := Filter.sift_fault sifted
      obtain ⟨resolved, reached⟩ := course.reached settled node member
      exact .inr ⟨fault, node, state, rfl, reached, resolved, same, fails⟩
    · obtain ⟨after, store, pass, exhausted⟩ :=
        course.presents marked ready.output stillFaithful
      have selects := Filter.select_of_sift (course.falls settled recedes) sifted
      have order : (configure source settings {} graph).1.order = Setting.orderOf settings :=
        ready.order
      rw [filter, order, selects, Order.presented_none] at pass
      rw [sifted] at emptied
      exact .inl ⟨nodes, rfl, emptied rfl, after, store, pass, next_exhausted exhausted⟩

/-- A limit of one that is spent includes neither tip of the fork. Asked for in any order, a
walk from both tips gives what the walk under this limit gives that empties its queue. -/
theorem stops_lose_nothing_fork :
    (∀ (results : List (Except Fault Outcome)) (last : Filter),
      Filter.Asked fork (.atMost 1 1)
        [⟨.uniform 3, .zero, [.uniform 1], 3⟩, ⟨.uniform 2, .zero, [.uniform 1], 2⟩] results last →
      .ok .include ∉ results) ∧
    ∃ nodes last kept,
      exhaust fork ObjectId.total
        (configure fork
          [.mark (.start (.uniform 2)), .filter (.atMost 1 0), .mark (.start (.uniform 3))] {} {}).1
        (configure fork
          [.mark (.start (.uniform 2)), .filter (.atMost 1 0), .mark (.start (.uniform 3))] {} {}).2
        = (.ok nodes, last, kept) ∧ last.pending = [] ∧
      ∃ after store, Pass fork
        (configure fork
          [.mark (.start (.uniform 2)), .filter (.atMost 1 0), .mark (.start (.uniform 3))] {} {}).1
        (configure fork
          [.mark (.start (.uniform 2)), .filter (.atMost 1 0), .mark (.start (.uniform 3))] {} {}).2
        nodes none after store := by
  have both := stops_lose_nothing fork
  constructor
  · intro results last asked
    exact both.1 (.atMost 1 1) (.atMost 1 1) ⟨.uniform 3, .zero, [.uniform 1], 3⟩ {} {} rfl _
      results last asked (by decide)
  · obtain ⟨result, last, kept, ran, ⟨nodes, rfl, empty, after, store, pass, _⟩ | failed⟩ :=
      both.2 [.mark (.start (.uniform 2)), .filter (.atMost 1 0), .mark (.start (.uniform 3))] {}
        (Graph.faithful_empty fork) (fork_resolves (by decide)) (fork_descends (by decide)).recedes
    · exact ⟨nodes, last, kept, ran, empty, after, store, pass⟩
    · obtain ⟨fault, node, state, _, _, _, same, fails⟩ := failed
      have counts : state.fresh = .atMost 1 0 := same
      cases state with
      | atMost limit seen =>
        by_cases full : limit ≤ seen <;> simp [Filter.answer, Filter.judge, full] at fails
      | _ => cases counts

end Ancestry.Walk
