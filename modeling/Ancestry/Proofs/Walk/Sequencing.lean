import Ancestry.Walk.Run

/-!
# Operations in parts

An operation on a walk is a sequence of parts, and it fails where one of them fails. The
equations here name the parts of every operation, so that what all parts keep is kept by the
operation. A request is put together from a search, and a search from any kind of visit, so
that what is said of them holds of other visits than those of a walk as well.
-/

namespace Ancestry.Walk

variable {α β : Type} {source : Source}

/-- One operation and then another, which may depend on what the first one gives. -/
def Action.andThen (first : Action α) (next : α → Action β) : Action β :=
  fun walk graph =>
    match first walk graph with
    | (.error fault, walk, graph) => (.error fault, walk, graph)
    | (.ok value, walk, graph) => next value walk graph

/-- Where both succeed, each of them does. -/
theorem Action.of_andThen {first : Action α} {next : α → Action β} {walk after : Walk}
    {graph kept : Graph} {value : β}
    (ran : first.andThen next walk graph = (.ok value, after, kept)) :
    ∃ found between store, first walk graph = (.ok found, between, store) ∧
      next found between store = (.ok value, after, kept) := by
  rcases asked : first walk graph with ⟨fault | found, between, store⟩
  · simp only [Action.andThen, asked] at ran
    cases ran
  · simp only [Action.andThen, asked] at ran
    exact ⟨found, between, store, rfl, ran⟩

/-- Gives a value, changes the walk and reads nothing. -/
def Action.giving (value : α) (change : Walk → Walk) : Action α :=
  fun walk graph => (.ok value, change walk, graph)

/-- The first commit comes before the rest. -/
theorem eachOf_cons (step : ObjectId → Action Unit) (id : ObjectId) (rest : List ObjectId) :
    eachOf step (id :: rest) = (step id).andThen fun _ => eachOf step rest := by
  funext walk graph
  simp only [eachOf, Action.andThen]
  rcases step id walk graph with ⟨fault | done, walk, graph⟩ <;> rfl

section marks

/-- The node of an identifier, which changes no walk. -/
def fetch (source : Source) (id : ObjectId) : Action Node :=
  fun walk graph =>
    match graph.resolve source id with
    | (result, graph) => (result, walk, graph)

/-- Hiding what the parents of a commit lead to, where there is any depth left. -/
def hideParents (source : Source) : (most : Nat) → Node → Action Unit
  | 0, _, walk, graph => (.ok (), walk, graph)
  | most + 1, node, walk, graph =>
    eachOf (hideWithin source most) node.parents.reverse walk graph

/-- Only a visited commit that was not hidden is resolved, so that its parents are hidden as
well. -/
theorem hideWithin_eq (most : Nat) (id : ObjectId) (walk : Walk) (graph : Graph) :
    hideWithin source most id walk graph =
      if (walk.marksOf id).uninteresting then (.ok (), walk, graph)
      else if (walk.marksOf id).headerRead then
        (fetch source id).andThen (hideParents source most)
          (walk.mark id ({ · with uninteresting := true })) graph
      else if (walk.marksOf id).discovered then
        (.ok (), { walk.mark id ({ · with uninteresting := true }) with
          interesting := walk.interesting - 1 }, graph)
      else (.ok (), walk.mark id ({ · with uninteresting := true }), graph) := by
  unfold hideWithin
  simp only [fetch, Action.andThen]
  rcases graph.resolve source id with ⟨fault | node, kept⟩
  · rfl
  · cases most <;> rfl

/-- Queues a commit, unless it is discovered. -/
def welcome (source : Source) (id : ObjectId) : Action Unit :=
  fun walk graph =>
    if (walk.marksOf id).discovered then (.ok (), walk, graph)
    else
      match graph.resolve source id with
      | (.error fault, graph) => (.error fault, walk, graph)
      | (.ok node, graph) => (.ok (), walk.discover node, graph)

/-- A commit that was not discovered is fetched and queued. -/
theorem welcome_eq (id : ObjectId) (walk : Walk) (graph : Graph) :
    welcome source id walk graph =
      if (walk.marksOf id).discovered then (.ok (), walk, graph)
      else (fetch source id).andThen (fun node => .giving () (discover · node)) walk graph := by
  simp only [welcome, fetch, Action.andThen, Action.giving]
  rcases graph.resolve source id with ⟨fault | node, kept⟩ <;> rfl

/-- Hiding a parent, where the commit is hidden. -/
def veilParent (source : Source) (hidden : Bool) (parent : ObjectId) : Action Unit :=
  fun walk graph => if hidden then carryHidden source parent walk graph else (.ok (), walk, graph)

/-- A parent is hidden or not, and it is queued if it is new. -/
theorem meetParent_eq (hidden : Bool) (parent : ObjectId) :
    meetParent source hidden parent =
      (veilParent source hidden parent).andThen fun _ => welcome source parent := by
  funext walk graph
  simp only [meetParent, veilParent, Action.andThen, welcome]
  rcases if hidden then carryHidden source parent walk graph else (.ok (), walk, graph) with
    ⟨fault | done, walk, graph⟩ <;> rfl

/-- Starting from a commit, with its steps one after another. -/
theorem markStart_eq (id : ObjectId) :
    markStart source id =
      whenConfigured ((fetch source id).andThen fun node => .giving () (discover · node)) := by
  unfold markStart
  congr 1
  funext walk graph
  simp only [fetch, Action.andThen, Action.giving]
  rcases graph.resolve source id with ⟨fault | node, kept⟩ <;> rfl

/-- Hiding a commit, with its steps one after another. -/
theorem hide_eq (id : ObjectId) :
    hide source id =
      whenConfigured ((fetch source id).andThen fun node =>
        (carryHidden source id).andThen fun _ => .giving () (discover · node)) := by
  unfold hide
  congr 1
  funext walk graph
  simp only [fetch, Action.andThen, Action.giving]
  rcases graph.resolve source id with ⟨fault | node, kept⟩
  · rfl
  · dsimp only
    rcases carryHidden source id walk kept with ⟨fault | done, walk, graph⟩ <;> rfl

end marks

section visits

/-- The message of a node, which changes no walk. -/
def recite (source : Source) (node : Node) : Action String :=
  fun walk graph =>
    match graph.message source node with
    | (result, graph) => (result, walk, graph)

/-- Reading a message, and then the mark of it. -/
theorem body_eq (node : Node) :
    body source node = (recite source node).andThen fun message =>
      .giving message (mark · node.id ({ · with bodyRead := true })) := by
  funext walk graph
  simp only [body, recite, Action.andThen, Action.giving]
  rcases graph.message source node with ⟨fault | message, kept⟩ <;> rfl

/-- A message is read only where the filter needs it. -/
theorem prepare_eq (node : Node) (walk : Walk) (graph : Graph) :
    prepare source node walk graph =
      if walk.filter.needsMessage then
        (body source node).andThen (fun _ => .giving () id) walk graph
      else (.ok (), walk, graph) := by
  simp only [prepare, Action.andThen, Action.giving]
  rcases body source node walk graph with ⟨fault | message, walk, graph⟩ <;> rfl

/-- What the filter says of a commit. -/
def ask (source : Source) (node : Node) : Action Outcome := fun walk graph =>
  match walk.filter.judge source node graph with
  | (result, filter, graph) => (result, { walk with filter }, graph)

/-- The filter is asked when it can be. -/
theorem judge_eq (node : Node) :
    judge source node = (prepare source node).andThen fun _ => ask source node := by
  funext walk graph
  simp only [judge, Action.andThen, ask]
  rcases prepare source node walk graph with ⟨fault | done, walk, graph⟩ <;> rfl

/-- What follows from an outcome. -/
def conclude (node : Node) : Outcome → Action Verdict
  | .include, walk, graph => (.ok .emit, walk.mark node.id ({ · with emitted := true }), graph)
  | .exclude, walk, graph => (.ok .pass, walk, graph)
  | .stop, walk, graph => (.ok .finish, walk.clearPending, graph)

/-- The filter is asked, and then its answer is drawn on. -/
theorem decideOn_eq (node : Node) :
    decideOn source node = (judge source node).andThen (conclude node) := by
  funext walk graph
  simp only [decideOn, Action.andThen]
  rcases judge source node walk graph with ⟨fault | outcome, walk, graph⟩
  · rfl
  · cases outcome <;> rfl

/-- What follows after the parents of a commit were met. -/
def settle (source : Source) (node : Node) (hidden : Bool) : Action Verdict :=
  fun walk graph =>
    if hidden then
      if walk.interesting = 0 then (.ok .finish, walk.clearPending, graph)
      else (.ok .pass, walk, graph)
    else decideOn source node walk graph

/-- The first part of a visit, in which the commit leaves the queue and its parents are met. -/
def meet (source : Source) (node : Node) : Action Bool :=
  fun walk graph =>
    let hidden := (walk.marksOf node.id).uninteresting
    (expand source node hidden).andThen (fun _ => .giving hidden id) (walk.dequeue hidden) graph

/-- A commit is met, and then it is settled what becomes of it. -/
theorem visit_eq (node : Node) :
    visit source node = (meet source node).andThen (settle source node) := by
  funext walk graph
  simp only [visit, meet, Action.andThen, Action.giving, settle]
  rcases expand source node (walk.marksOf node.id).uninteresting
    (walk.dequeue (walk.marksOf node.id).uninteresting) graph with ⟨fault | done, walk, graph⟩
  · rfl
  · rfl

end visits

section requests

/-- What follows a visit: the end of a search for a commit, or the rest of it. -/
def resume (node : Node) (rest : Action (Option Node)) : Verdict → Action (Option Node)
  | .emit => .giving (some node) id
  | .finish => .giving none id
  | .pass => rest

/-- A search that visits the first pending commit. -/
def searchFirst (visit : Node → Action Verdict) (rest : Action (Option Node)) :
    Action (Option Node) :=
  fun walk graph =>
    match walk.pending with
    | [] => (.ok none, walk, graph)
    | node :: _ => (visit node).andThen (resume node rest) walk graph

/-- The search for the next commit by time, with any kind of visit. -/
def searchBy (visit : Node → Action Verdict) : (most : Nat) → Action (Option Node)
  | 0 => searchFirst visit (.giving none id)
  | most + 1 => searchFirst visit (searchBy visit most)

/-- What follows when a commit was found, or none, while all are collected. -/
def gather (rest : Action (List Node)) : Option Node → Action (List Node)
  | none => .giving [] id
  | some node => rest.andThen fun nodes => .giving (node :: nodes) id

/-- All further commits that a search finds. -/
def collectBy (search : Action (Option Node)) : (most : Nat) → Action (List Node)
  | 0 => search.andThen (gather (.giving [] id))
  | most + 1 => search.andThen (gather (collectBy search most))

/-- Keeps commits for giving out. -/
def keep (nodes : List Node) : Action Unit :=
  .giving () fun walk =>
    { (walk.arrange nodes).2 with output := some (walk.arrange nodes).1 }

/-- The start of a pass, with any search. -/
def startBy (search : Action (Option Node)) : Action Unit :=
  fun walk graph =>
    if walk.order.needsAll then
      (guarded (collectBy search ObjectId.total)).andThen keep { walk with phase := .running } graph
    else (.ok (), { walk with phase := .running }, graph)

/-- The next commit of a pass that has started, with any search. -/
def proceedBy (search : Action (Option Node)) : Action (Option Node) :=
  fun walk graph =>
    match walk.output with
    | none => search walk graph
    | some [] => (.ok none, walk, graph)
    | some (node :: rest) => (.ok (some node), { walk with output := some rest }, graph)

/-- Where nothing was found the pass is over. -/
def finish (found : Option Node) : Action (Option Node) :=
  .giving found fun walk => if found.isNone then { walk with phase := .exhausted } else walk

/-- The next commit, or none at the end of the pass, with any search. -/
def continuedBy (search : Action (Option Node)) : Action (Option Node) :=
  (guarded (proceedBy search)).andThen finish

/-- A request that is answered by any search, according to the phase of the walk. -/
def requestBy (search : Action (Option Node)) : Action (Option Node) :=
  fun walk graph =>
    match walk.phase with
    | .exhausted => (.ok none, walk, graph)
    | .running => continuedBy search walk graph
    | .configured => (startBy search).andThen (fun _ => continuedBy search) walk graph

/-- With an empty queue there is no next commit. -/
theorem searchFirst_nil {walk : Walk} (visit : Node → Action Verdict) (rest : Action (Option Node))
    (graph : Graph) (empty : walk.pending = []) :
    searchFirst visit rest walk graph = (.ok none, walk, graph) := by
  simp only [searchFirst, empty]

/-- The first node of the queue is visited, and the search goes on as the visit says. -/
theorem searchFirst_cons {walk : Walk} {node : Node} {later : List Node}
    (visit : Node → Action Verdict) (rest : Action (Option Node)) (graph : Graph)
    (first : walk.pending = node :: later) :
    searchFirst visit rest walk graph = (visit node).andThen (resume node rest) walk graph := by
  simp only [searchFirst, first]

/-- A search goes on after its first commit while the bound allows it. -/
theorem nextWithin_eq (most : Nat) :
    nextWithin source most =
      searchFirst (visit source) (match most with
        | 0 => .giving none id
        | most + 1 => nextWithin source most) := by
  funext walk graph
  rw [nextWithin]
  cases first : walk.pending with
  | nil => exact (searchFirst_nil _ _ graph first).symm
  | cons node later =>
    rw [searchFirst_cons _ _ graph first, Action.andThen]
    dsimp only
    rcases visit source node walk graph with ⟨fault | verdict, between, kept⟩
    · rfl
    · cases verdict <;> cases most <;> rfl

/-- Over visits to the source the search is the one that the walk makes. -/
theorem searchBy_visit (most : Nat) : searchBy (visit source) most = nextWithin source most := by
  induction most with
  | zero => exact (nextWithin_eq 0).symm
  | succ most inductionHypothesis =>
    rw [searchBy, inductionHypothesis]
    exact (nextWithin_eq (most + 1)).symm

/-- Collecting goes on after the first commit while the bound allows it. -/
theorem collectWithin_eq (most : Nat) :
    collectWithin source most =
      (nextByTime source).andThen (gather (match most with
        | 0 => .giving [] id
        | most + 1 => collectWithin source most)) := by
  funext walk graph
  rw [collectWithin, Action.andThen]
  rcases nextByTime source walk graph with ⟨fault | _ | node, between, kept⟩
  · rfl
  · rfl
  · cases most with
    | zero => rfl
    | succ most =>
      simp only [gather, Action.andThen, Action.giving]
      rcases collectWithin source most between kept with ⟨fault | nodes, after, last⟩ <;> rfl

/-- Over the next commit by time collecting is what the walk does. -/
theorem collectBy_next (most : Nat) :
    collectBy (nextByTime source) most = collectWithin source most := by
  induction most with
  | zero => exact (collectWithin_eq 0).symm
  | succ most inductionHypothesis =>
    rw [collectBy, inductionHypothesis]
    exact (collectWithin_eq (most + 1)).symm

/-- Over the next commit by time the start is the one of the walk. -/
theorem startBy_next : startBy (nextByTime source) = start source := by
  have collects : collectBy (nextByTime source) ObjectId.total = collect source := collectBy_next _
  funext walk graph
  simp only [startBy, start, collects, Action.andThen]
  rcases guarded (collect source) { walk with phase := .running } graph with
    ⟨fault | nodes, between, kept⟩ <;> rfl

/-- Over the next commit by time going on is what the walk does. -/
theorem continuedBy_next : continuedBy (nextByTime source) = continued source := by
  have proceeds : proceedBy (nextByTime source) = proceed source := rfl
  funext walk graph
  rw [continuedBy, proceeds, continued, Action.andThen]
  rcases guarded (proceed source) walk graph with ⟨fault | _ | node, between, kept⟩ <;> rfl

/-- With the search of a walk these are its requests. -/
theorem requestBy_next : requestBy (nextByTime source) = next source := by
  funext walk graph
  simp only [requestBy, next, startBy_next, continuedBy_next, Action.andThen]
  cases walk.phase with
  | exhausted | running => rfl
  | configured => rcases start source walk graph with ⟨fault | done, between, kept⟩ <;> rfl

end requests

end Ancestry.Walk
