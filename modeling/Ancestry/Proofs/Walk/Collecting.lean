import Ancestry.Proofs.Walk.Filtering
import Ancestry.Proofs.Walk.Settings

/-!
# Passes in any order

An order other than that of times needs all commits before the first one is given. The
first request collects what the walk by time would give, arranges it and keeps it, and
every later request takes one commit of it. Where collecting meets a fault that is the
answer to the first request, and no commit is given.
-/

namespace Ancestry

namespace Order

/-- Commits in the order that is asked for. -/
def arranged (order : Order) (nodes : List Node) : List Node :=
  let sorted := if order.topological then (Topological.sort nodes).1 else nodes
  if order.reversed then sorted.reverse else sorted

/-- What a pass gives of the commits of a walk by time, and how it ends. Where all commits
are needed first a fault leaves none of them. -/
def presented (order : Order) (nodes : List Node) (ending : Option Fault) :
    List Node × Option Fault :=
  if order.needsAll && ending.isSome then ([], ending) else (order.arranged nodes, ending)

/-- The order of times changes nothing. -/
theorem presented_byTime {order : Order} (byTime : order.needsAll = false) (nodes : List Node)
    (ending : Option Fault) : order.presented nodes ending = (nodes, ending) := by
  have neither : order.topological = false ∧ order.reversed = false := by
    simpa [needsAll] using byTime
  simp [presented, arranged, neither, byTime]

/-- Where nothing fails all commits are given in the order that was asked for. -/
theorem presented_none (order : Order) (nodes : List Node) :
    order.presented nodes none = (order.arranged nodes, none) := by
  simp [presented]

end Order

namespace Walk

variable {source : Source} {walk other after : Walk} {graph store kept : Graph}
  {roots hidden : List ObjectId} {shown given : List Node} {ending last : Option Fault}

/-- Marking commits as held back changes nothing but marks. -/
theorem exists_delayed (held : List Node) (walk : Walk) :
    ∃ marks, held.foldl (fun walk node => walk.mark node.id ({ · with delayed := true })) walk =
      { walk with marks } := by
  induction held generalizing walk with
  | nil => exact ⟨walk.marks, rfl⟩
  | cons node rest inductionHypothesis =>
    obtain ⟨marks, same⟩ := inductionHypothesis (walk.mark node.id ({ · with delayed := true }))
    exact ⟨marks, same⟩

/-- Arranging puts commits into the order that the walk was asked for, and changes nothing but
marks. -/
theorem arrange_arranges (walk : Walk) (nodes : List Node) :
    ∃ marks, walk.arrange nodes = (walk.order.arranged nodes, { walk with marks }) := by
  by_cases topological : walk.order.topological = true
  · obtain ⟨marks, delayed⟩ := exists_delayed (Topological.sort nodes).2 walk
    refine ⟨marks, ?_⟩
    simp only [arrange, Order.arranged, topological, if_true, delayed]
  · refine ⟨walk.marks, ?_⟩
    simp only [arrange, Order.arranged, topological, if_false, Bool.false_eq_true]

/-- Putting commits into order changes marks only, not the pass. -/
theorem arrange_pass (walk : Walk) (nodes : List Node) : SamePass walk (walk.arrange nodes).2 := by
  obtain ⟨marks, arranged⟩ := arrange_arranges walk nodes
  rw [arranged]
  exact ⟨rfl, rfl, rfl⟩

/-- Putting commits into order leaves the queue alone. -/
theorem arrange_pending (walk : Walk) (nodes : List Node) :
    (walk.arrange nodes).2.pending = walk.pending := by
  obtain ⟨marks, arranged⟩ := arrange_arranges walk nodes
  rw [arranged]

/-- No commit is selected twice. -/
theorem Course.selects_distinct (course : Course source walk shown ending)
    (consistent : walk.Consistent source)
    (selects : walk.filter.select source ending shown = (given, last)) :
    (given.map Node.id).Nodup := by
  have sublist : (walk.filter.select source ending shown).1.Sublist shown :=
    walk.filter.select_sublist shown
  rw [selects] at sublist
  exact (sublist.map Node.id).nodup (course.distinct consistent)

section searches

variable {search : Action (Option Node)}

/-- Collecting starts with one search. -/
theorem collectBy_first (search : Action (Option Node)) (most : Nat) :
    ∃ more, collectBy search most = search.andThen (gather more) := by
  cases most <;> exact ⟨_, rfl⟩

/-- Collecting gives all that the walk yields, or the fault in which that ends. The queue is empty
then, unless there is a fault. -/
theorem Answering.collects (answering : Answering source roots hidden search) (most : Nat)
    (settled : walk.Settled source roots hidden) (faithful : graph.Faithful source)
    (enough : given.length ≤ most) (yields : walk.Yields source given ending) :
    ∃ after kept, SamePass walk after ∧ (ending = none → after.pending = []) ∧
      collectBy search most walk graph = (ending.elim (.ok given) .error, after, kept) := by
  induction given generalizing most walk graph with
  | nil =>
    obtain ⟨serves, empties⟩ := answering settled faithful yields
    obtain ⟨more, first⟩ := collectBy_first search most
    rw [first, Action.andThen]
    generalize search walk graph = answer at serves empties ⊢
    cases serves with
    | ended pass => exact ⟨_, _, pass, fun _ => empties rfl, rfl⟩
    | failed pass => exact ⟨_, _, pass, by simp, rfl⟩
  | cons node rest inductionHypothesis =>
    obtain ⟨serves, _⟩ := answering settled faithful yields
    cases most with
    | zero => simp at enough
    | succ most =>
      rw [collectBy, Action.andThen]
      generalize search walk graph = answer at serves ⊢
      cases serves with
      | gave pass settled faithful yields =>
        have left : rest.length ≤ most := by simpa using enough
        obtain ⟨after, last, stillPass, empties, collected⟩ :=
          inductionHypothesis most settled faithful left yields
        refine ⟨after, last, pass.trans stillPass, empties, ?_⟩
        simp only [gather, Action.andThen, collected]
        cases ending <;> rfl

/-- A commit that is kept for giving out is given, and where none is left the pass is over. -/
theorem requestBy_kept (search : Action (Option Node)) (given : List Node)
    (phase : walk.phase = .running) (output : walk.output = some given) :
    requestBy search walk graph =
      match given with
      | [] => (.ok none, { walk with phase := .exhausted }, graph)
      | node :: rest => (.ok (some node), { walk with output := some rest }, graph) := by
  cases given <;>
    simp [requestBy, continuedBy, phase, Action.andThen, guarded, proceedBy, output, finish,
      Action.giving]

/-- What is kept for giving out is given, one commit for each request, and no mark changes. -/
theorem PassBy.of_output (search : Action (Option Node)) (given : List Node)
    (phase : walk.phase = .running) (output : walk.output = some given) :
    ∃ after, PassBy (requestBy search) walk graph given none after graph ∧
      after.phase = .exhausted ∧ after.marks = walk.marks ∧ after.pending = walk.pending := by
  induction given generalizing walk with
  | nil => exact ⟨_, .ended (requestBy_kept search [] phase output), rfl, rfl, rfl⟩
  | cons node rest inductionHypothesis =>
    obtain ⟨after, pass, exhausted, same⟩ :=
      @inductionHypothesis { walk with output := some rest } phase rfl
    exact ⟨after, .gave (requestBy_kept search (node :: rest) phase output) pass, exhausted, same⟩

/-- A pass is told by the first request. -/
theorem PassBy.of_request {request : Action (Option Node)}
    (same : request walk graph = request other store)
    (pass : PassBy request other store given ending after kept) :
    PassBy request walk graph given ending after kept := by
  cases pass with
  | ended ran => exact .ended (same.trans ran)
  | failed ran => exact .failed (same.trans ran)
  | gave ran pass => exact .gave (same.trans ran) pass

/-- The first request of an order that needs all commits, where collecting them meets no fault: it
is answered as if the arranged commits had been kept already. -/
structure Gathers (search : Action (Option Node)) (walk : Walk) (graph : Graph) (given : List Node)
    (between : Walk) (kept : Graph) : Prop where
  collected : collectBy search ObjectId.total walk.running graph = (.ok given, between, kept)
  empty : between.pending = []
  pass : SamePass walk.running (between.arrange given).2
  first : requestBy search walk graph =
    requestBy search { (between.arrange given).2 with output := some (walk.order.arranged given) }
      kept

/-- Where collecting succeeds and leaves an empty queue the first request is answered from what was
collected. -/
theorem gathers_of_collected {between : Walk} (phase : walk.phase = .configured)
    (all : walk.order.needsAll = true) (same : SamePass walk.running between)
    (empty : between.pending = [])
    (collected : collectBy search ObjectId.total walk.running graph = (.ok given, between, kept)) :
    Gathers search walk graph given between kept := by
  have pass := same.trans (arrange_pass between given)
  have running : (between.arrange given).2.phase = .running := pass.phase
  have arranged : (between.arrange given).1 = walk.order.arranged given := by
    obtain ⟨marks, arranged⟩ := arrange_arranges between given
    have order : between.order = walk.order := same.order
    rw [arranged, order]
  change collectBy search ObjectId.total { walk with phase := .running } graph = _ at collected
  have started : startBy search walk graph =
      (.ok (), { (between.arrange given).2 with output := some (walk.order.arranged given) },
        kept) := by
    simp only [startBy, all, if_true, Action.andThen, guarded, collected, keep, Action.giving,
      arranged]
  refine ⟨collected, empty, pass, ?_⟩
  simp only [requestBy, phase, Action.andThen, started, running]

/-- The first request of an order that needs all commits. Either it fails as the walk by time
would, or all commits are collected. -/
theorem Answering.gathers (answering : Answering source roots hidden search)
    (course : Course source walk shown ending) (marked : walk.Marked source roots hidden)
    (all : walk.order.needsAll = true) (faithful : graph.Faithful source)
    (selects : walk.filter.select source ending shown = (given, last)) :
    (∃ fault after kept, last = some fault ∧
        requestBy search walk graph = (.error fault, after, kept) ∧
        after.phase = .exhausted ∧ after.pending = []) ∨
      (last = none ∧ ∃ between kept, Gathers search walk graph given between kept) := by
  have yields : walk.running.Yields source given last :=
    Yields.running ⟨shown, ending, course, selects⟩
  have short : given.length ≤ ObjectId.total := by
    have distinct := course.selects_distinct marked.consistent selects
    simpa using ObjectId.length_le_total (given.map Node.id) distinct
  obtain ⟨between, kept, pass, empties, collected⟩ := answering.collects ObjectId.total
    (marked.settled.congr (running_state walk)) faithful short yields
  cases last with
  | some fault =>
    refine .inl ⟨fault, between.abort, kept, rfl, ?_, rfl, rfl⟩
    change collectBy search ObjectId.total { walk with phase := .running } graph = _ at collected
    simp only [requestBy, marked.phase, startBy, all, if_true, guarded, Action.andThen, collected,
      Option.elim]
  | none =>
    exact .inr ⟨rfl, between, kept,
      gathers_of_collected marked.phase all pass (empties rfl) collected⟩

/-- Then the arranged commits are given, and no mark changes any more. -/
theorem Gathers.passes {between : Walk} (gathers : Gathers search walk graph given between kept) :
    ∃ after, PassBy (requestBy search) walk graph (walk.order.arranged given) none after kept ∧
      after.phase = .exhausted ∧ after.marks = (between.arrange given).2.marks ∧
      after.pending = [] := by
  obtain ⟨after, rest, exhausted, marks, pending⟩ : ∃ after,
      PassBy (requestBy search)
        { (between.arrange given).2 with output := some (walk.order.arranged given) } kept
        (walk.order.arranged given) none after kept ∧ after.phase = .exhausted ∧
        after.marks = (between.arrange given).2.marks ∧
        after.pending = (between.arrange given).2.pending :=
    PassBy.of_output search (walk.order.arranged given) gathers.pass.phase rfl
  refine ⟨after, rest.of_request gathers.first, exhausted, marks, ?_⟩
  rw [pending, arrange_pending, gathers.empty]

/-- What a walk before its pass gives in any order, and how the pass ends. Its queue is empty
then. -/
theorem Answering.presents (answering : Answering source roots hidden search)
    (course : Course source walk shown ending) (marked : walk.Marked source roots hidden)
    (output : walk.output = none) (faithful : graph.Faithful source) :
    ∃ after kept,
      PassBy (requestBy search) walk graph
        (walk.order.presented (walk.filter.select source ending shown).1
          (walk.filter.select source ending shown).2).1
        (walk.order.presented (walk.filter.select source ending shown).1
          (walk.filter.select source ending shown).2).2 after kept ∧
      after.phase = .exhausted ∧ after.pending = [] := by
  cases byTime : walk.order.needsAll with
  | false =>
    have opened : walk.Open := ⟨byTime, by simp [marked.phase], output⟩
    rw [Order.presented_byTime byTime]
    exact answering.exists_pass opened marked.settled faithful ⟨shown, ending, course, rfl⟩
  | true =>
    rcases selects : walk.filter.select source ending shown with ⟨given, last⟩
    rcases answering.gathers course marked byTime faithful selects with failed | collected
    · obtain ⟨fault, after, kept, rfl, ran, exhausted⟩ := failed
      have presented : walk.order.presented given (some fault) = ([], some fault) := by
        simp [Order.presented, byTime]
      rw [presented]
      exact ⟨after, kept, .failed ran, exhausted⟩
    · obtain ⟨rfl, between, kept, gathers⟩ := collected
      obtain ⟨after, passes, exhausted, _, empty⟩ := gathers.passes
      rw [Order.presented_none]
      exact ⟨after, kept, passes, exhausted, empty⟩

end searches

/-- Where commits are kept the next request gives the first of them, and none at their end. -/
theorem next_kept (given : List Node) (phase : walk.phase = .running)
    (output : walk.output = some given) :
    next source walk graph =
      match given with
      | [] => (.ok none, { walk with phase := .exhausted }, graph)
      | node :: rest => (.ok (some node), { walk with output := some rest }, graph) := by
  rw [← requestBy_next]
  exact requestBy_kept (nextByTime source) given phase output

/-- The pass of a walk presents its course in the order that was asked for.

Proof: the next commit by time answers with the course, and every search that does so is presented
in this way. -/
theorem Course.presents (course : Course source walk shown ending)
    (marked : walk.Marked source roots hidden) (output : walk.output = none)
    (faithful : graph.Faithful source) :
    ∃ after kept,
      Pass source walk graph
        (walk.order.presented (walk.filter.select source ending shown).1
          (walk.filter.select source ending shown).2).1
        (walk.order.presented (walk.filter.select source ending shown).1
          (walk.filter.select source ending shown).2).2 after kept ∧
      after.phase = .exhausted := by
  obtain ⟨after, kept, passes, exhausted, _⟩ :=
    nextByTime_answering.presents course marked output faithful
  rw [requestBy_next] at passes
  exact ⟨after, kept, passBy_next.mp passes, exhausted⟩

end Walk

end Ancestry
