import Ancestry.Proofs.Stops
import Ancestry.Proofs.Walk.Collecting
import Ancestry.Proofs.Walk.Sequencing
import Ancestry.Proofs.Walk.Sessions

/-!
# What a graph has read does not matter

A walk reads through a graph, which answers from what it has read before or from the source.
As long as the graph is faithful the two cannot be told apart: every operation gives the same
result and leaves the same walk over any faithful graph, and the graph stays faithful. None
of this needs a consistent walk, so that it holds in the middle of an operation and after a
fault too.

In its pass a walk keeps the order that was chosen, and of its filter nothing but counters
changes.
-/

namespace Ancestry.Walk

variable {α β : Type} {source : Source} {before after : Walk}

/-- The order is the same, and so is the filter but for its counters. -/
structure SameChoices (before after : Walk) : Prop where
  order : after.order = before.order
  fresh : after.filter.fresh = before.filter.fresh

/-- A walk that is not touched has the choices that it had. -/
theorem SameChoices.refl (walk : Walk) : SameChoices walk walk := ⟨rfl, rfl⟩

/-- Two steps that each change no choice change none together. -/
theorem SameChoices.trans {between : Walk} (first : SameChoices before between)
    (second : SameChoices between after) : SameChoices before after :=
  ⟨second.order.trans first.order, second.fresh.trans first.fresh⟩

/-- A reading that has one result for all faithful graphs, and that leaves one walk, in which
nothing else was chosen. -/
def Steady (source : Source) (before : Walk) (reading : Graph → α × Walk × Graph) : Prop :=
  ∃ result after, SameChoices before after ∧ ∀ graph, graph.Faithful source →
    ∃ kept, reading graph = (result, after, kept) ∧ kept.Faithful source

/-- Nothing is read. -/
theorem Steady.known {reading : Graph → α × Walk × Graph} (result : α)
    (same : SameChoices before after) (knows : ∀ graph, reading graph = (result, after, graph)) :
    Steady source before reading :=
  ⟨result, after, same, fun graph faithful => ⟨graph, knows graph, faithful⟩⟩

/-- What reads as a steady reading does is one. -/
theorem Steady.as {reading other : Graph → α × Walk × Graph} (steady : Steady source before reading)
    (same : ∀ graph, other graph = reading graph) : Steady source before other := by
  obtain rfl : other = reading := funext same
  exact steady

/-- What a steady reading comes to over a faithful graph. -/
theorem Steady.found {reading : Graph → α × Walk × Graph} {graph kept : Graph} {result : α}
    (steady : Steady source before reading) (faithful : graph.Faithful source)
    (ran : reading graph = (result, after, kept)) :
    SameChoices before after ∧ kept.Faithful source := by
  obtain ⟨_, _, same, settled⟩ := steady
  obtain ⟨_, again, stillFaithful⟩ := settled graph faithful
  rw [ran] at again
  cases again
  exact ⟨same, stillFaithful⟩

/-- What comes before a steady reading may be any walk with the same choices. -/
theorem Steady.of_same {between : Walk} {reading : Graph → α × Walk × Graph}
    (steady : Steady source between reading) (same : SameChoices before between) :
    Steady source before reading := by
  obtain ⟨result, after, stays, settled⟩ := steady
  exact ⟨result, after, same.trans stays, settled⟩

/-- One steady operation after another, which starts from the walk that the first one
leaves. -/
theorem Steady.andThen {first : Action α} {next : α → Action β} {walk : Walk}
    (steady : Steady source before (first walk))
    (rest : ∀ value between, Steady source between (next value between)) :
    Steady source before (first.andThen next walk) := by
  obtain ⟨result, between, same, settled⟩ := steady
  cases result with
  | error fault =>
    refine ⟨.error fault, between, same, fun graph faithful => ?_⟩
    obtain ⟨kept, ran, faithful⟩ := settled graph faithful
    exact ⟨kept, by simp only [Action.andThen, ran], faithful⟩
  | ok value =>
    obtain ⟨last, after, stays, finished⟩ := rest value between
    refine ⟨last, after, same.trans stays, fun graph faithful => ?_⟩
    obtain ⟨store, ran, faithful⟩ := settled graph faithful
    obtain ⟨kept, done, faithful⟩ := finished store faithful
    exact ⟨kept, by simp only [Action.andThen, ran, done], faithful⟩

/-- A change of the walk that changes no choice. -/
theorem Steady.giving {change : Walk → Walk} (value : α) (walk : Walk)
    (same : SameChoices walk (change walk)) :
    Steady source walk (Action.giving value change walk) :=
  .known (.ok value) same fun _ => rfl

section marks

/-- A change of marks changes no choice. -/
theorem mark_choices (walk : Walk) (id : ObjectId) (change : Marks → Marks) :
    SameChoices walk (walk.mark id change) := ⟨rfl, rfl⟩

/-- Discovering a node changes no choice. -/
theorem discover_choices (walk : Walk) (node : Node) : SameChoices walk (walk.discover node) :=
  ⟨discover_keeps.order, congrArg Filter.fresh discover_keeps.filter⟩

/-- What is steady for each commit is steady for all of them in turn, by induction on the list. -/
theorem eachOf_steady {step : ObjectId → Action Unit}
    (each : ∀ id walk, Steady source walk (step id walk)) (ids : List ObjectId) (walk : Walk) :
    Steady source walk (eachOf step ids walk) := by
  induction ids generalizing walk with
  | nil => exact .known (Except.ok ()) (.refl walk) fun _ => rfl
  | cons id rest inductionHypothesis =>
    rw [eachOf_cons]
    exact (each id walk).andThen fun _ between => inductionHypothesis between

/-- Fetching a node is steady: a faithful graph answers as the source does. -/
theorem fetch_steady (id : ObjectId) (walk : Walk) : Steady source walk (fetch source id walk) := by
  refine ⟨source.node id, walk, .refl walk, fun graph faithful => ?_⟩
  obtain ⟨kept, answered, faithful⟩ := faithful.resolve id
  exact ⟨kept, by simp only [fetch, answered], faithful⟩

/-- Hiding a commit is steady where hiding what its parents lead to is. -/
theorem hideWithin_steady_of (most : Nat) (id : ObjectId) (walk : Walk)
    (parents : ∀ node walk, Steady source walk (hideParents source most node walk)) :
    Steady source walk (hideWithin source most id walk) := by
  refine .as ?_ (hideWithin_eq most id walk)
  have marked : SameChoices walk (walk.mark id ({ · with uninteresting := true })) := ⟨rfl, rfl⟩
  cases (walk.marksOf id).uninteresting with
  | true => exact .known (Except.ok ()) (.refl walk) fun _ => rfl
  | false =>
    cases (walk.marksOf id).headerRead with
    | true => exact ((fetch_steady id _).andThen parents).of_same marked
    | false =>
      cases (walk.marksOf id).discovered with
      | true =>
        have counted : SameChoices walk { walk.mark id ({ · with uninteresting := true }) with
            interesting := walk.interesting - 1 } := ⟨rfl, rfl⟩
        exact .known (Except.ok ()) counted fun _ => rfl
      | false => exact .known (Except.ok ()) marked fun _ => rfl

/-- Hiding is steady for every bound, by induction on it. -/
theorem hideWithin_steady (most : Nat) (id : ObjectId) (walk : Walk) :
    Steady source walk (hideWithin source most id walk) := by
  induction most generalizing id walk with
  | zero =>
    apply hideWithin_steady_of
    intro node walk
    exact .known (Except.ok ()) (.refl walk) fun _ => rfl
  | succ most inductionHypothesis =>
    apply hideWithin_steady_of
    intro node walk
    exact eachOf_steady inductionHypothesis node.parents.reverse walk

/-- Queueing a commit with its node is steady. -/
theorem welcome_steady (id : ObjectId) (walk : Walk) :
    Steady source walk (welcome source id walk) := by
  refine .as ?_ (welcome_eq id walk)
  cases (walk.marksOf id).discovered with
  | true => exact .known (Except.ok ()) (.refl walk) fun _ => rfl
  | false =>
    exact (fetch_steady id walk).andThen fun node between =>
      .giving () between (discover_choices between node)

/-- Meeting a parent hides it or not, and queues it if it is new. -/
theorem meetParent_steady (hidden : Bool) (parent : ObjectId) (walk : Walk) :
    Steady source walk (meetParent source hidden parent walk) := by
  have first : Steady source walk (veilParent source hidden parent walk) := by
    cases hidden with
    | false => exact .known (Except.ok ()) (.refl walk) fun _ => rfl
    | true => exact hideWithin_steady ObjectId.total parent walk
  rw [meetParent_eq]
  exact first.andThen fun _ between => welcome_steady parent between

/-- Looking at the parents of a visited commit is steady. -/
theorem expand_steady (node : Node) (hidden : Bool) (walk : Walk) :
    Steady source walk (expand source node hidden walk) :=
  (eachOf_steady (meetParent_steady hidden) node.parents _).of_same (mark_choices walk node.id _)

end marks

section visits

/-- Reading a message is steady: a faithful graph answers as the source does. -/
theorem recite_steady (node : Node) (walk : Walk) :
    Steady source walk (recite source node walk) := by
  refine ⟨source.message node.id, walk, .refl walk, fun graph faithful => ?_⟩
  obtain ⟨kept, answered, faithful⟩ := faithful.message node
  exact ⟨kept, by simp only [recite, answered], faithful⟩

/-- The message of a node, which marks it as read. -/
theorem body_steady (node : Node) (walk : Walk) : Steady source walk (body source node walk) := by
  rw [body_eq]
  exact (recite_steady node walk).andThen fun message between =>
    .giving message between (mark_choices between node.id _)

/-- Reading the message for the filter is steady, whether or not it is needed. -/
theorem prepare_steady (node : Node) (walk : Walk) :
    Steady source walk (prepare source node walk) := by
  refine .as ?_ (prepare_eq node walk)
  cases walk.filter.needsMessage with
  | true =>
    exact (body_steady node walk).andThen fun _ between => .giving () between (.refl between)
  | false => exact .known (Except.ok ()) (.refl walk) fun _ => rfl

/-- Asking the filter changes its counters. -/
theorem ask_steady (node : Node) (walk : Walk) : Steady source walk (ask source node walk) := by
  have fresh : (walk.filter.answer source node).2.fresh = walk.filter.fresh :=
    Filter.judge_fresh source node walk.filter {}
  refine ⟨(walk.filter.answer source node).1,
    { walk with filter := (walk.filter.answer source node).2 }, ⟨rfl, fresh⟩,
    fun graph faithful => ?_⟩
  obtain ⟨kept, answered, faithful⟩ := walk.filter.judge_answer source node graph faithful
  exact ⟨kept, by simp only [ask, answered], faithful⟩

/-- Asking the filter is steady. What it says depends on the source, never on what was read
before. -/
theorem judge_steady (node : Node) (walk : Walk) : Steady source walk (judge source node walk) := by
  rw [judge_eq]
  exact (prepare_steady node walk).andThen fun _ between => ask_steady node between

/-- What is drawn from an answer of the filter reads nothing. -/
theorem conclude_steady (node : Node) (outcome : Outcome) (walk : Walk) :
    Steady source walk (conclude node outcome walk) := by
  cases outcome with
  | «include» => exact .known (Except.ok Verdict.emit) (mark_choices walk node.id _) fun _ => rfl
  | exclude => exact .known (Except.ok Verdict.pass) (.refl walk) fun _ => rfl
  | stop =>
    have cleared : SameChoices walk walk.clearPending := ⟨rfl, rfl⟩
    exact .known (Except.ok Verdict.finish) cleared fun _ => rfl

/-- Deciding about a commit is steady. -/
theorem decideOn_steady (node : Node) (walk : Walk) :
    Steady source walk (decideOn source node walk) := by
  rw [decideOn_eq]
  exact (judge_steady node walk).andThen (conclude_steady node)

/-- Meeting a commit that is not hidden is steady. -/
theorem meet_steady (node : Node) (walk : Walk) : Steady source walk (meet source node walk) := by
  have left : SameChoices walk (walk.dequeue (walk.marksOf node.id).uninteresting) := ⟨rfl, rfl⟩
  exact ((expand_steady node _ _).andThen fun _ between =>
    .giving _ between (.refl between)).of_same left

/-- Settling what becomes of a visited commit is steady, hidden or not. -/
theorem settle_steady (node : Node) (hidden : Bool) (walk : Walk) :
    Steady source walk (settle source node hidden walk) := by
  cases hidden with
  | false => exact decideOn_steady node walk
  | true =>
    by_cases none : walk.interesting = 0
    · refine .known (.ok .finish) (show SameChoices walk walk.clearPending from ⟨rfl, rfl⟩) ?_
      intro graph
      simp only [settle, none, if_true]
    · refine .known (.ok .pass) (.refl walk) ?_
      intro graph
      simp only [settle, none, if_true, if_false]

/-- A visit is steady. -/
theorem visit_steady (node : Node) (walk : Walk) : Steady source walk (visit source node walk) := by
  rw [visit_eq]
  exact (meet_steady node walk).andThen (settle_steady node)

end visits

section requests

variable {visit : Node → Action Verdict} {search : Action (Option Node)}

/-- A search is steady where its visits and the search behind the first node are. -/
theorem searchFirst_steady {rest : Action (Option Node)}
    (visits : ∀ node walk, Steady source walk (visit node walk))
    (rests : ∀ walk, Steady source walk (rest walk)) (walk : Walk) :
    Steady source walk (searchFirst visit rest walk) := by
  have resumes : ∀ node verdict walk, Steady source walk (resume node rest verdict walk) := by
    intro node verdict walk
    cases verdict with
    | emit => exact .giving (some node) walk (.refl walk)
    | finish => exact .giving none walk (.refl walk)
    | pass => exact rests walk
  cases first : walk.pending with
  | nil => exact .known (.ok none) (.refl walk) fun graph => searchFirst_nil visit rest graph first
  | cons node later =>
    have visited : Steady source walk ((visit node).andThen (resume node rest) walk) :=
      (visits node walk).andThen (resumes node)
    exact visited.as fun graph => searchFirst_cons visit rest graph first

/-- A search for the next commit is steady where its visits are, by induction on the bound. -/
theorem searchBy_steady (visits : ∀ node walk, Steady source walk (visit node walk)) (most : Nat)
    (walk : Walk) : Steady source walk (searchBy visit most walk) := by
  induction most generalizing walk with
  | zero => exact searchFirst_steady visits (fun walk => .giving none walk (.refl walk)) walk
  | succ most inductionHypothesis => exact searchFirst_steady visits inductionHypothesis walk

/-- Gathering one more commit is steady where gathering the rest is. -/
theorem gather_steady {rest : Action (List Node)} (rests : ∀ walk, Steady source walk (rest walk))
    (found : Option Node) (walk : Walk) : Steady source walk (gather rest found walk) := by
  cases found with
  | none => exact .giving [] walk (.refl walk)
  | some node =>
    exact (rests walk).andThen fun nodes between => .giving (node :: nodes) between (.refl between)

/-- Collecting is steady where the search that it repeats is. -/
theorem collectBy_steady (searches : ∀ walk, Steady source walk (search walk)) (most : Nat)
    (walk : Walk) : Steady source walk (collectBy search most walk) := by
  induction most generalizing walk with
  | zero => exact (searches walk).andThen (gather_steady fun walk => .giving [] walk (.refl walk))
  | succ most inductionHypothesis =>
    exact (searches walk).andThen (gather_steady inductionHypothesis)

/-- Putting commits into an order marks some of them. -/
theorem arrange_choices (walk : Walk) (nodes : List Node) :
    SameChoices walk (walk.arrange nodes).2 := by
  obtain ⟨marks, arranged⟩ := arrange_arranges walk nodes
  rw [arranged]
  exact ⟨rfl, rfl⟩

/-- A fault ends the pass, which changes no choice. -/
theorem guarded_steady {action : Action α} (walk : Walk)
    (steady : Steady source walk (action walk)) : Steady source walk (guarded action walk) := by
  obtain ⟨result, after, same, settled⟩ := steady
  cases result with
  | error fault =>
    refine ⟨.error fault, after.abort, ⟨same.order, same.fresh⟩, fun graph faithful => ?_⟩
    obtain ⟨kept, ran, faithful⟩ := settled graph faithful
    exact ⟨kept, by simp only [guarded, ran], faithful⟩
  | ok value =>
    refine ⟨.ok value, after, same, fun graph faithful => ?_⟩
    obtain ⟨kept, ran, faithful⟩ := settled graph faithful
    exact ⟨kept, by simp only [guarded, ran], faithful⟩

/-- Keeping what was collected reads nothing. -/
theorem keep_steady (nodes : List Node) (walk : Walk) : Steady source walk (keep nodes walk) := by
  have same := arrange_choices walk nodes
  exact .giving () walk ⟨same.order, same.fresh⟩

/-- Starting a pass is steady where its search is. -/
theorem startBy_steady (searches : ∀ walk, Steady source walk (search walk)) (walk : Walk) :
    Steady source walk (startBy search walk) := by
  have running : SameChoices walk { walk with phase := .running } := ⟨rfl, rfl⟩
  have collected : Steady source walk
      ((guarded (collectBy search ObjectId.total)).andThen keep { walk with phase := .running }) :=
    ((guarded_steady _ (collectBy_steady searches ObjectId.total _)).andThen keep_steady).of_same
      running
  unfold startBy
  cases walk.order.needsAll with
  | true => exact collected
  | false => exact .known (Except.ok ()) running fun _ => rfl

/-- The next commit of a started pass is steady where its search is. -/
theorem proceedBy_steady (searches : ∀ walk, Steady source walk (search walk)) (walk : Walk) :
    Steady source walk (proceedBy search walk) := by
  unfold proceedBy
  cases output : walk.output with
  | none => exact searches walk
  | some nodes =>
    cases nodes with
    | nil => exact .known (Except.ok none) (.refl walk) fun _ => rfl
    | cons node rest =>
      have given : SameChoices walk { walk with output := some rest } := ⟨rfl, rfl⟩
      exact .known (Except.ok (some node)) given fun _ => rfl

/-- Ending a pass reads nothing. -/
theorem finish_steady (found : Option Node) (walk : Walk) :
    Steady source walk (finish found walk) := by
  refine .giving found walk ?_
  cases found <;> exact ⟨rfl, rfl⟩

/-- Going on with a pass is steady where its search is. -/
theorem continuedBy_steady (searches : ∀ walk, Steady source walk (search walk)) (walk : Walk) :
    Steady source walk (continuedBy search walk) :=
  (guarded_steady walk (proceedBy_steady searches walk)).andThen finish_steady

/-- A request is steady where its search is, also where it fails and ends the pass. -/
theorem requestBy_steady (searches : ∀ walk, Steady source walk (search walk)) (walk : Walk) :
    Steady source walk (requestBy search walk) := by
  unfold requestBy
  cases walk.phase with
  | exhausted => exact .known (Except.ok none) (.refl walk) fun _ => rfl
  | running => exact continuedBy_steady searches walk
  | configured =>
    exact (startBy_steady searches walk).andThen fun _ between =>
      continuedBy_steady searches between

/-- A request for a commit, in every phase of a walk. -/
theorem next_steady (walk : Walk) : Steady source walk (next source walk) := by
  have searches : ∀ walk, Steady source walk (nextByTime source walk) := by
    rw [nextByTime, ← searchBy_visit]
    exact searchBy_steady visit_steady ObjectId.total
  rw [← requestBy_next]
  exact requestBy_steady searches walk

end requests

section settings

/-- A walk that has started refuses a setting and reads nothing. -/
theorem whenConfigured_steady {action : Action Unit} (walk : Walk)
    (steady : Steady source walk (action walk)) :
    Steady source walk (whenConfigured action walk) := by
  by_cases configured : walk.phase = .configured
  · apply steady.as
    intro graph
    simp only [whenConfigured, configured, if_true]
  · refine .known (.error .walkStarted) (.refl walk) ?_
    intro graph
    simp only [whenConfigured, configured, if_false]

/-- Starting from a commit is steady. -/
theorem markStart_steady (id : ObjectId) (walk : Walk) :
    Steady source walk (markStart source id walk) := by
  rw [markStart_eq]
  apply whenConfigured_steady
  exact (fetch_steady id walk).andThen fun node between =>
    .giving () between (discover_choices between node)

/-- Hiding a commit with all that is reachable from it is steady. -/
theorem hide_steady (id : ObjectId) (walk : Walk) : Steady source walk (hide source id walk) := by
  rw [hide_eq]
  apply whenConfigured_steady
  refine (fetch_steady id walk).andThen fun node between => ?_
  have veiled : Steady source between (carryHidden source id between) :=
    hideWithin_steady ObjectId.total id between
  exact veiled.andThen fun _ after => .giving () after (discover_choices after node)

/-- Marking a commit chooses neither filter nor order. -/
theorem mark_steady (mark : Mark) (walk : Walk) :
    Steady source walk (mark.action source walk) := by
  cases mark with
  | start id => exact markStart_steady id walk
  | hide id => exact hide_steady id walk

end settings

section operations

/-- What a walk has chosen after some events: of several orders and filters that were done the
last one counts, and of the filter all but its counters. -/
structure Chooses (events : List Event) (before after : Walk) : Prop where
  order : after.order = Setting.orderOr before.order (Event.chosen events)
  fresh : after.filter.fresh = (Setting.filterOr before.filter (Event.chosen events)).fresh

/-- Where no order and no filter was done nothing else is chosen. -/
theorem Chooses.of_same {events : List Event}
    (sameOrder : Setting.orderOr before.order (Event.chosen events) = before.order)
    (sameFilter : Setting.filterOr before.filter (Event.chosen events) = before.filter)
    (same : SameChoices before after) : Chooses events before after :=
  ⟨by rw [sameOrder, same.order], by rw [sameFilter, same.fresh]⟩

/-- What was chosen later counts. -/
theorem Chooses.append {earlier later : List Event} {between : Walk}
    (first : Chooses earlier before between) (second : Chooses later between after) :
    Chooses (earlier ++ later) before after := by
  constructor
  · rw [second.order, first.order]
    simp [Setting.orderOr, Event.chosen, List.getLast?_append]
  · rw [second.fresh]
    have fresh := first.fresh
    simp only [Setting.filterOr, Event.chosen, List.filterMap_append, List.getLast?_append]
      at fresh ⊢
    cases ((later.filterMap Event.chosen?).filterMap Setting.filter?).getLast? with
    | none => simpa using fresh
    | some filter => simp

/-- An operation that is no setting chooses nothing. -/
theorem chosen_none {operation : Operation} (reply : Reply) (other : operation.setting? = none) :
    Event.chosen [(operation, reply)] = [] := by
  cases reply <;> simp [Event.chosen, Event.chosen?, other]

/-- An operation has one reply for all faithful graphs, and it leaves one walk, in which nothing
was chosen but what was done. -/
def Replies (source : Source) (operation : Operation) (before : Walk) : Prop :=
  ∃ reply after, Chooses [(operation, reply)] before after ∧ ∀ graph, graph.Faithful source →
    ∃ kept, perform source operation before graph = (reply, after, kept) ∧ kept.Faithful source

/-- The result of a steady reading is the reply to an operation that is no setting. -/
theorem Steady.replies {reading : Graph → α × Walk × Graph} {operation : Operation}
    (steady : Steady source before reading) (tell : α → Reply) (other : operation.setting? = none)
    (told : ∀ graph result after kept, reading graph = (result, after, kept) →
      perform source operation before graph = (tell result, after, kept)) :
    Replies source operation before := by
  obtain ⟨result, after, same, settled⟩ := steady
  have nothing := chosen_none (tell result) other
  refine ⟨tell result, after, .of_same (by rw [nothing]; rfl) (by rw [nothing]; rfl) same, ?_⟩
  intro graph faithful
  obtain ⟨kept, ran, faithful⟩ := settled graph faithful
  exact ⟨kept, told graph result after kept ran, faithful⟩

/-- A choice reads nothing. It is done if the walk waits for its pass. -/
theorem choice_replies {setting : Setting} {change : Walk → Walk}
    (told : setting.action source = whenConfigured fun walk graph => (.ok (), change walk, graph))
    (done : Chooses [(.set setting, .done)] before (change before)) :
    Replies source (.set setting) before := by
  by_cases configured : before.phase = .configured
  · refine ⟨.done, change before, done, fun graph faithful => ⟨graph, ?_, faithful⟩⟩
    simp only [perform, told, whenConfigured, configured, if_true]
    rfl
  · refine ⟨.failed .walkStarted, before, .of_same rfl rfl (.refl before), ?_⟩
    intro graph faithful
    refine ⟨graph, ?_, faithful⟩
    simp only [perform, told, whenConfigured, configured, if_false]
    rfl

/-- The order and the filter of a setting are chosen if it is done. -/
theorem set_replies (source : Source) (setting : Setting) (walk : Walk) :
    Replies source (.set setting) walk := by
  cases setting with
  | filter filter =>
    have told : (Setting.filter filter).action source =
      whenConfigured fun walk graph => (.ok (), { walk with filter }, graph) := rfl
    exact choice_replies told ⟨rfl, rfl⟩
  | order order =>
    have told : (Setting.order order).action source =
      whenConfigured fun walk graph => (.ok (), { walk with order }, graph) := rfl
    exact choice_replies told ⟨rfl, rfl⟩
  | mark mark =>
    have steady : Steady source walk (mark.action source walk) := mark_steady mark walk
    obtain ⟨result, after, same, settled⟩ := steady
    refine ⟨.ofResult (fun _ => .done) result, after, ?_, fun graph faithful => ?_⟩
    · cases result <;> exact .of_same rfl rfl same
    · obtain ⟨kept, ran, faithful⟩ := settled graph faithful
      exact ⟨kept, by simp only [perform, Setting.action, ran], faithful⟩

/-- So it is with every operation. -/
theorem perform_replies (source : Source) (operation : Operation) (walk : Walk) :
    Replies source operation walk := by
  cases operation with
  | set setting => exact set_replies source setting walk
  | next =>
    have steady : Steady source walk (next source walk) := next_steady walk
    apply steady.replies (.ofResult .commit) rfl
    intro graph result after kept ran
    simp only [perform, ran]
  | body node =>
    have steady : Steady source walk (body source node walk) := body_steady node walk
    apply steady.replies (.ofResult .message) rfl
    intro graph result after kept ran
    simp only [perform, ran]
  | marks id =>
    have steady : Steady source walk fun graph => (walk.marksOf id, walk, graph) :=
      .known _ (.refl walk) fun _ => rfl
    apply steady.replies .marks rfl
    rintro graph result after kept ⟨⟩
    rfl
  | describe =>
    have steady : Steady source walk fun graph => (walk.describe, walk, graph) :=
      .known _ (.refl walk) fun _ => rfl
    apply steady.replies .text rfl
    rintro graph result after kept ⟨⟩
    rfl
  | reset =>
    have same : SameChoices walk walk.reset := ⟨rfl, walk.filter.fresh_fresh⟩
    have steady : Steady source walk fun graph => ((), walk.reset, graph) :=
      .known () same fun _ => rfl
    apply steady.replies (fun _ => .done) rfl
    rintro graph result after kept ⟨⟩
    rfl

/-- A session has the same replies over all faithful graphs, and it leaves one walk. -/
theorem session_replies (source : Source) (operations : List Operation) (walk : Walk) :
    ∃ replies last, ∀ graph, graph.Faithful source →
      ∃ kept, session source operations walk graph = (replies, last, kept) ∧
        kept.Faithful source := by
  induction operations generalizing walk with
  | nil => exact ⟨[], walk, fun graph faithful => ⟨graph, rfl, faithful⟩⟩
  | cons operation rest inductionHypothesis =>
    obtain ⟨reply, between, _, first⟩ := perform_replies source operation walk
    obtain ⟨replies, last, later⟩ := inductionHypothesis between
    refine ⟨reply :: replies, last, fun graph faithful => ?_⟩
    obtain ⟨store, ran, faithful⟩ := first graph faithful
    obtain ⟨kept, finished, faithful⟩ := later store faithful
    exact ⟨kept, by simp only [session, ran, finished], faithful⟩

end operations

section histories

variable {events : List Event} {operation : Operation} {operations : List Operation} {walk : Walk}
  {reply : Reply} {replies : List Reply} {last : Walk} {graph kept : Graph}

/-- One operation over a faithful graph. -/
theorem perform_chooses (faithful : graph.Faithful source)
    (ran : perform source operation before graph = (reply, after, kept)) :
    Chooses [(operation, reply)] before after ∧ kept.Faithful source := by
  obtain ⟨_, _, chooses, settled⟩ := perform_replies source operation before
  obtain ⟨_, again, stillFaithful⟩ := settled graph faithful
  rw [ran] at again
  cases again
  exact ⟨chooses, stillFaithful⟩

/-- The order and the filter of a walk are those that were chosen last. -/
theorem History.chooses (history : History source events walk) : Chooses events {} walk := by
  induction history with
  | new => exact ⟨rfl, rfl⟩
  | more history faithful ran inductionHypothesis =>
    exact inductionHypothesis.append (perform_chooses faithful ran).1

/-- What happens in a session becomes history. -/
theorem History.session (history : History source events walk) (faithful : graph.Faithful source)
    (ran : session source operations walk graph = (replies, last, kept)) :
    History source (events ++ operations.zip replies) last ∧ kept.Faithful source := by
  induction operations generalizing events walk graph replies with
  | nil =>
    cases ran
    simpa using ⟨history, faithful⟩
  | cons operation rest inductionHypothesis =>
    rcases first : perform source operation walk graph with ⟨reply, between, store⟩
    rcases later : Walk.session source rest between store with ⟨others, final, left⟩
    simp only [Walk.session, first, later] at ran
    cases ran
    have between := (perform_chooses faithful first).2
    simpa using inductionHypothesis (history.more faithful first) between later

/-- The history of a new walk over a new graph, by its replies. -/
theorem exists_history (answered : (session source operations {} {}).1 = replies) :
    ∃ walk kept, session source operations {} {} = (replies, walk, kept) ∧
      History source (operations.zip replies) walk ∧ kept.Faithful source := by
  rcases ran : session source operations {} {} with ⟨others, walk, kept⟩
  rw [ran] at answered
  subst answered
  obtain ⟨history, faithful⟩ := History.new.session (Graph.faithful_empty source) ran
  exact ⟨walk, kept, rfl, history, faithful⟩

end histories

end Ancestry.Walk
