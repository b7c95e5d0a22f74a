import Ancestry.Proofs.Filter.Rewording
import Ancestry.Proofs.Walk.Resemblance

/-!
# Walks that read no messages

A walk whose filter reads no messages reads none, and marks no commit as one of which the message
was read. So it cannot tell sources apart in which commits only say different things: over both of
them every operation has the same reply and leaves the same walk, as long as no needle of the
filter is moved.
-/

namespace Ancestry

/-- An operation that asks for no message, and chooses a filter only if it is of some kind. -/
def Operation.Fits (kind : Filter → Prop) : Operation → Prop
  | .set (.filter filter) => kind filter
  | .body _ => False
  | _ => True

/-- What fits a kind of filters fits every wider kind. -/
theorem Operation.Fits.mono {kind wider : Filter → Prop} {operation : Operation}
    (fits : operation.Fits kind) (included : ∀ filter, kind filter → wider filter) :
    operation.Fits wider := by
  cases operation with
  | set setting =>
    cases setting with
    | filter filter => exact included filter fits
    | mark | order => trivial
  | body => exact fits
  | next | marks | describe | reset => trivial

namespace Walk

variable {α β : Type} {left right : Source} {walk between after : Walk} {graph : Graph}

/-- Of the filter nothing but counters has changed, and no further commit is marked as read. -/
structure Mute (before after : Walk) : Prop where
  fresh : after.filter.fresh = before.filter.fresh
  bodyRead : ∀ id, (after.marksOf id).bodyRead = true → (before.marksOf id).bodyRead = true

/-- A walk that is not touched has read nothing. -/
theorem Mute.refl (walk : Walk) : Mute walk walk := ⟨rfl, fun _ read => read⟩

/-- Two steps that each read nothing read nothing together. -/
theorem Mute.trans (first : Mute walk between) (second : Mute between after) : Mute walk after :=
  ⟨second.fresh.trans first.fresh, fun id read => first.bodyRead id (second.bodyRead id read)⟩

/-- A traversal leaves filter and marks of this kind alone. -/
theorem KeepsRest.mute (keeps : KeepsRest walk after) : Mute walk after :=
  ⟨congrArg Filter.fresh keeps.filter, fun id read => (keeps.bodyRead id).symm.trans read⟩

/-- A change of marks that does not read. -/
theorem mark_mute (walk : Walk) (id : ObjectId) {change : Marks → Marks}
    (steady : ∀ marks, (change marks).bodyRead = marks.bodyRead) :
    Mute walk (walk.mark id change) := by
  refine ⟨rfl, fun other read => ?_⟩
  rw [marksOf_mark] at read
  by_cases same : other = id
  · rwa [if_pos same, steady, ← same] at read
  · rwa [if_neg same] at read

/-- Putting collected commits into order reads none of their messages. -/
theorem arrange_mute (walk : Walk) (nodes : List Node) : Mute walk (walk.arrange nodes).2 := by
  have delayed (held : List Node) (walk : Walk) : Mute walk
      (held.foldl (fun walk node => walk.mark node.id ({ · with delayed := true })) walk) := by
    induction held generalizing walk with
    | nil => exact .refl walk
    | cons node rest inductionHypothesis =>
      have marked : Mute walk (walk.mark node.id ({ · with delayed := true })) :=
        mark_mute walk node.id fun _ => rfl
      exact marked.trans (inductionHypothesis _)
  rw [arrange_walk]
  split
  · exact delayed _ walk
  · exact .refl walk

/-- Two operations come to the same, and nothing was read of any message. -/
structure Quiet (walk : Walk) (graph : Graph) (one other : Except Fault α × Walk × Graph) :
    Prop where
  same : other = one
  mute : Mute walk one.2.1
  messages : one.2.2.messages = graph.messages

/-- What comes before may be any walk of which as much was read. -/
theorem Quiet.of_mute {one other : Except Fault α × Walk × Graph}
    (quiet : Quiet between graph one other) (mute : Mute walk between) :
    Quiet walk graph one other :=
  ⟨quiet.same, mute.trans quiet.mute, quiet.messages⟩

/-- Nothing is read at all. -/
theorem Quiet.known (result : Except Fault α) (graph : Graph) (mute : Mute walk after) :
    Quiet walk graph (result, after, graph) (result, after, graph) :=
  ⟨rfl, mute, rfl⟩

/-- Actions that come to the same in every walk with a filter that overlooks what commits say. -/
def Concurs (left right : Source) (one other : Action α) : Prop :=
  ∀ ⦃walk⦄, walk.filter.Overlooks left right → ∀ graph,
    Quiet walk graph (one walk graph) (other walk graph)

/-- One action after another. Whatever the first one leaves has a filter of the same kind. -/
theorem Concurs.andThen {one other : Action α} {next others : α → Action β}
    (first : Concurs left right one other)
    (rest : ∀ value, Concurs left right (next value) (others value)) :
    Concurs left right (one.andThen next) (other.andThen others) := by
  intro walk overlooks graph
  obtain ⟨same, mute, messages⟩ := first overlooks graph
  simp only [Action.andThen, same]
  rcases ran : one walk graph with ⟨fault | value, between, store⟩
  · rw [ran] at mute messages
    exact ⟨rfl, mute, messages⟩
  · rw [ran] at mute messages
    have later := rest value (overlooks.of_fresh mute.fresh) store
    exact ⟨later.same, mute.trans later.mute, later.messages.trans messages⟩

/-- A change of the walk that reads nothing is the same over both sources. -/
theorem Concurs.giving {change : Walk → Walk} (value : α)
    (mutes : ∀ walk, Mute walk (change walk)) :
    Concurs left right (.giving value change) (.giving value change) :=
  fun walk _ graph => .known (.ok value) graph (mutes walk)

/-- What concurs for each commit concurs for all of them in turn, by induction on the list. -/
theorem eachOf_concurs {step other : ObjectId → Action Unit}
    (each : ∀ id, Concurs left right (step id) (other id)) (ids : List ObjectId) :
    Concurs left right (eachOf step ids) (eachOf other ids) := by
  induction ids with
  | nil => exact fun walk _ graph => .known (.ok ()) graph (.refl walk)
  | cons id rest inductionHypothesis =>
    rw [eachOf_cons, eachOf_cons]
    exact (each id).andThen fun _ => inductionHypothesis

/-- A fault ends the pass. -/
theorem guarded_concurs {one other : Action α} (concurs : Concurs left right one other) :
    Concurs left right (guarded one) (guarded other) := by
  intro walk overlooks graph
  obtain ⟨same, mute, messages⟩ := concurs overlooks graph
  simp only [guarded, same]
  rcases ran : one walk graph with ⟨fault | value, between, store⟩
  · rw [ran] at mute messages
    exact ⟨rfl, ⟨mute.fresh, mute.bodyRead⟩, messages⟩
  · rw [ran] at mute messages
    exact ⟨rfl, mute, messages⟩

/-- A walk that has started refuses. -/
theorem whenConfigured_concurs {one other : Action Unit} (concurs : Concurs left right one other) :
    Concurs left right (whenConfigured one) (whenConfigured other) := by
  intro walk overlooks graph
  rw [whenConfigured, whenConfigured]
  split
  · exact concurs overlooks graph
  · exact .known _ graph (.refl walk)

section marks

variable (reworded : Source.Reworded left right)

include reworded

/-- Sources that only say different things answer for a node alike. -/
theorem fetch_concurs (id : ObjectId) : Concurs left right (fetch left id) (fetch right id) := by
  intro walk overlooks graph
  simp only [fetch, Graph.resolve_reworded reworded]
  exact ⟨rfl, .refl walk, Graph.resolve_messages left graph id⟩

omit reworded in
/-- Discovering a node asks no source. -/
theorem discover_concurs (node : Node) :
    Concurs left right (.giving () (discover · node)) (.giving () (discover · node)) :=
  .giving () fun _ => discover_keeps.mute

/-- Hiding a commit, where hiding what its parents lead to comes to the same. -/
theorem hideWithin_concurs_of (most : Nat) (id : ObjectId)
    (parents : ∀ node, Concurs left right (hideParents left most node)
      (hideParents right most node)) :
    Concurs left right (hideWithin left most id) (hideWithin right most id) := by
  intro walk overlooks graph
  rw [hideWithin_eq, hideWithin_eq]
  have hides : Mute walk (walk.mark id ({ · with uninteresting := true })) :=
    mark_mute walk id fun _ => rfl
  cases (walk.marksOf id).uninteresting with
  | true => exact .known (.ok ()) graph (.refl walk)
  | false =>
    cases (walk.marksOf id).headerRead with
    | true =>
      have later := (fetch_concurs reworded id).andThen parents
      exact (later (overlooks.of_fresh hides.fresh) graph).of_mute hides
    | false =>
      cases (walk.marksOf id).discovered with
      | true => exact .known (.ok ()) graph ⟨hides.fresh, hides.bodyRead⟩
      | false => exact .known (.ok ()) graph hides

/-- Hiding reads headers only, for every bound. -/
theorem hideWithin_concurs (most : Nat) (id : ObjectId) :
    Concurs left right (hideWithin left most id) (hideWithin right most id) := by
  induction most generalizing id with
  | zero =>
    exact hideWithin_concurs_of reworded 0 id fun _ walk _ graph =>
      .known (.ok ()) graph (.refl walk)
  | succ most inductionHypothesis =>
    exact hideWithin_concurs_of reworded (most + 1) id fun node =>
      eachOf_concurs inductionHypothesis node.parents.reverse

/-- Queueing a commit with its node reads its header only. -/
theorem welcome_concurs (id : ObjectId) :
    Concurs left right (welcome left id) (welcome right id) := by
  intro walk overlooks graph
  rw [welcome_eq, welcome_eq]
  split
  · exact .known (.ok ()) graph (.refl walk)
  · exact (fetch_concurs reworded id).andThen discover_concurs overlooks graph

/-- Looking at a parent reads its header only. -/
theorem meetParent_concurs (hidden : Bool) (parent : ObjectId) :
    Concurs left right (meetParent left hidden parent) (meetParent right hidden parent) := by
  have first : Concurs left right (veilParent left hidden parent) (veilParent right hidden parent)
      := by
    cases hidden with
    | false => exact fun walk _ graph => .known (.ok ()) graph (.refl walk)
    | true => exact hideWithin_concurs reworded ObjectId.total parent
  rw [meetParent_eq, meetParent_eq]
  exact first.andThen fun _ => welcome_concurs reworded parent

/-- Looking at the parents of a visited commit reads headers only. -/
theorem expand_concurs (node : Node) (hidden : Bool) :
    Concurs left right (expand left node hidden) (expand right node hidden) := by
  intro walk overlooks graph
  have entered : Mute walk (walk.mark node.id ({ · with headerRead := true })) :=
    mark_mute walk node.id fun _ => rfl
  have meets := eachOf_concurs (meetParent_concurs reworded hidden) node.parents
  exact (meets (overlooks.of_fresh entered.fresh) graph).of_mute entered

end marks

section visits

variable (reworded : Source.Reworded left right)

include reworded

/-- The filter is asked without a message. -/
theorem judge_concurs (node : Node) : Concurs left right (judge left node) (judge right node) := by
  have prepares (source : Source) (walk : Walk) (graph : Graph)
      (overlooks : walk.filter.Overlooks left right) :
      judge source node walk graph = ask source node walk graph := by
    rw [judge_eq, Action.andThen, prepare_eq, overlooks.silent]
    rfl
  intro walk overlooks graph
  rw [prepares left walk graph overlooks, prepares right walk graph overlooks]
  have fresh := Filter.judge_fresh left node walk.filter graph
  have messages := Filter.judge_messages left overlooks.silent node graph
  simp only [ask, Filter.judge_reworded reworded overlooks]
  exact ⟨rfl, ⟨fresh, fun _ read => read⟩, messages⟩

/-- Deciding about a commit concurs: no message is fetched, and the filter overlooks what the
sources say differently. -/
theorem decideOn_concurs (node : Node) :
    Concurs left right (decideOn left node) (decideOn right node) := by
  have concludes (outcome : Outcome) :
      Concurs left right (conclude node outcome) (conclude node outcome) := by
    intro walk _ graph
    cases outcome with
    | «include» => exact .known (.ok Verdict.emit) graph (mark_mute walk node.id fun _ => rfl)
    | exclude => exact .known (.ok Verdict.pass) graph (.refl walk)
    | stop => exact .known (.ok Verdict.finish) graph ⟨rfl, fun _ read => read⟩
  rw [decideOn_eq, decideOn_eq]
  exact (judge_concurs reworded node).andThen concludes

/-- A visit concurs, since all its parts do. -/
theorem visit_concurs (node : Node) : Concurs left right (visit left node) (visit right node) := by
  have meets : Concurs left right (meet left node) (meet right node) := by
    intro walk overlooks graph
    have gives (hidden : Bool) : Concurs left right (.giving hidden id) (.giving hidden id) :=
      .giving hidden Mute.refl
    have first := (expand_concurs reworded node (walk.marksOf node.id).uninteresting).andThen
      fun _ => gives (walk.marksOf node.id).uninteresting
    have taken : Mute walk (walk.dequeue (walk.marksOf node.id).uninteresting) :=
      ⟨rfl, fun _ read => read⟩
    exact (first (overlooks.of_fresh taken.fresh) graph).of_mute taken
  have settles (hidden : Bool) :
      Concurs left right (settle left node hidden) (settle right node hidden) := by
    intro walk overlooks graph
    cases hidden with
    | false => exact decideOn_concurs reworded node overlooks graph
    | true =>
      simp only [settle, if_true]
      split
      · exact .known (.ok Verdict.finish) graph ⟨rfl, fun _ read => read⟩
      · exact .known (.ok Verdict.pass) graph (.refl walk)
  rw [visit_eq, visit_eq]
  exact meets.andThen settles

end visits

section requests

variable {visit others : Node → Action Verdict} {search other : Action (Option Node)}

/-- A search concurs where its visits and the search behind the first node do. -/
theorem searchFirst_concurs {rest later : Action (Option Node)}
    (visits : ∀ node, Concurs left right (visit node) (others node))
    (rests : Concurs left right rest later) :
    Concurs left right (searchFirst visit rest) (searchFirst others later) := by
  have resumes (node : Node) (verdict : Verdict) :
      Concurs left right (resume node rest verdict) (resume node later verdict) := by
    cases verdict with
    | emit => exact .giving (some node) Mute.refl
    | finish => exact .giving none Mute.refl
    | pass => exact rests
  intro walk overlooks graph
  cases first : walk.pending with
  | nil =>
    rw [searchFirst_nil visit rest graph first, searchFirst_nil others later graph first]
    exact .known (.ok none) graph (.refl walk)
  | cons node _ =>
    rw [searchFirst_cons visit rest graph first, searchFirst_cons others later graph first]
    exact (visits node).andThen (resumes node) overlooks graph

/-- A search for the next commit concurs where its visits do, by induction on the bound. -/
theorem searchBy_concurs (visits : ∀ node, Concurs left right (visit node) (others node))
    (most : Nat) : Concurs left right (searchBy visit most) (searchBy others most) := by
  induction most with
  | zero => exact searchFirst_concurs visits (.giving none Mute.refl)
  | succ most inductionHypothesis => exact searchFirst_concurs visits inductionHypothesis

/-- Collecting concurs where the search that it repeats does. -/
theorem collectBy_concurs (searches : Concurs left right search other) (most : Nat) :
    Concurs left right (collectBy search most) (collectBy other most) := by
  have gathers {rest later : Action (List Node)} (rests : Concurs left right rest later)
      (found : Option Node) : Concurs left right (gather rest found) (gather later found) := by
    cases found with
    | none => exact .giving [] Mute.refl
    | some node => exact rests.andThen fun nodes => .giving (node :: nodes) Mute.refl
  induction most with
  | zero => exact searches.andThen (gathers (.giving [] Mute.refl))
  | succ most inductionHypothesis => exact searches.andThen (gathers inductionHypothesis)

/-- Going on with a pass concurs where its search does. -/
theorem continuedBy_concurs (searches : Concurs left right search other) :
    Concurs left right (continuedBy search) (continuedBy other) := by
  have proceeds : Concurs left right (proceedBy search) (proceedBy other) := by
    intro walk overlooks graph
    unfold proceedBy
    cases walk.output with
    | none => exact searches overlooks graph
    | some nodes =>
      cases nodes with
      | nil => exact .known (.ok none) graph (.refl walk)
      | cons node rest => exact .known (.ok (some node)) graph ⟨rfl, fun _ read => read⟩
  refine (guarded_concurs proceeds).andThen fun found => .giving found fun walk => ?_
  split
  · exact ⟨rfl, fun _ read => read⟩
  · exact .refl walk

/-- Starting a pass concurs where its search does. -/
theorem startBy_concurs (searches : Concurs left right search other) :
    Concurs left right (startBy search) (startBy other) := by
  have keeps (nodes : List Node) : Concurs left right (keep nodes) (keep nodes) :=
    .giving () fun walk => ⟨(arrange_mute walk nodes).fresh, (arrange_mute walk nodes).bodyRead⟩
  intro walk overlooks graph
  have begun : Mute walk { walk with phase := .running } := ⟨rfl, fun _ read => read⟩
  have collects := (guarded_concurs (collectBy_concurs searches ObjectId.total)).andThen keeps
  unfold startBy
  split
  · exact (collects (overlooks.of_fresh begun.fresh) graph).of_mute begun
  · exact .known (.ok ()) graph begun

/-- A request concurs where its search does. -/
theorem requestBy_concurs (searches : Concurs left right search other) :
    Concurs left right (requestBy search) (requestBy other) := by
  have starts := (startBy_concurs searches).andThen fun _ => continuedBy_concurs searches
  intro walk overlooks graph
  unfold requestBy
  cases walk.phase with
  | exhausted => exact .known (.ok none) graph (.refl walk)
  | running => exact continuedBy_concurs searches overlooks graph
  | configured => exact starts overlooks graph

/-- A request for a commit, in every phase. -/
theorem next_concurs (reworded : Source.Reworded left right) :
    Concurs left right (next left) (next right) := by
  rw [← requestBy_next, ← requestBy_next]
  apply requestBy_concurs
  rw [nextByTime, nextByTime, ← searchBy_visit, ← searchBy_visit]
  exact searchBy_concurs (visit_concurs reworded) ObjectId.total

end requests

section operations

/-- What is left when no message was read: a filter that still overlooks what commits say, no
further mark of a reading, and no further message in the graph. -/
structure Unread (left right : Source) (walk : Walk) (graph : Graph) (after : Walk) (kept : Graph) :
    Prop where
  filter : after.filter.Overlooks left right
  bodyRead : ∀ id, (after.marksOf id).bodyRead = true → (walk.marksOf id).bodyRead = true
  messages : kept.messages = graph.messages

/-- Two readings that come to the same are told in the same way. -/
theorem Quiet.unread {one other : Except Fault α × Walk × Graph}
    (quiet : Quiet walk graph one other) (overlooks : walk.filter.Overlooks left right)
    (tell : Except Fault α → Reply) :
    (tell other.1, other.2) = (tell one.1, one.2) ∧
      Unread left right walk graph one.2.1 one.2.2 := by
  obtain ⟨rfl, mute, messages⟩ := quiet
  exact ⟨rfl, overlooks.of_fresh mute.fresh, mute.bodyRead, messages⟩

/-- A mark is set or refused. -/
theorem action_concurs (reworded : Source.Reworded left right) (mark : Mark) :
    Concurs left right (mark.action left) (mark.action right) := by
  cases mark with
  | start id =>
    simp only [Mark.action, markStart_eq]
    exact whenConfigured_concurs ((fetch_concurs reworded id).andThen discover_concurs)
  | hide id =>
    simp only [Mark.action, hide_eq]
    refine whenConfigured_concurs ((fetch_concurs reworded id).andThen fun node => ?_)
    have hides : Concurs left right (carryHidden left id) (carryHidden right id) :=
      hideWithin_concurs reworded ObjectId.total id
    exact hides.andThen fun _ => discover_concurs node

/-- Every operation that fits has the same reply over both sources. -/
theorem perform_concurs (reworded : Source.Reworded left right) {operation : Operation}
    (fits : operation.Fits (Filter.Overlooks left right))
    (overlooks : walk.filter.Overlooks left right) (graph : Graph) :
    perform right operation walk graph = perform left operation walk graph ∧
      Unread left right walk graph (perform left operation walk graph).2.1
        (perform left operation walk graph).2.2 := by
  cases operation with
  | body => exact absurd fits id
  | marks | describe => exact ⟨rfl, overlooks, fun _ read => read, rfl⟩
  | next => exact (next_concurs reworded overlooks graph).unread overlooks (.ofResult .commit)
  | reset =>
    refine ⟨rfl, overlooks.of_fresh walk.filter.fresh_fresh, fun id read => ?_, rfl⟩
    simp [perform, reset, marksOf] at read
  | set setting =>
    cases setting with
    | mark mark =>
      exact (action_concurs reworded mark overlooks graph).unread overlooks
        (.ofResult fun _ => .done)
    | order order =>
      refine ⟨rfl, ?_⟩
      simp only [perform, Setting.action, setOrder, whenConfigured]
      split <;> exact ⟨overlooks, fun _ read => read, rfl⟩
    | filter filter =>
      refine ⟨rfl, ?_⟩
      simp only [perform, Setting.action, setFilter, whenConfigured]
      split
      · exact ⟨fits, fun _ read => read, rfl⟩
      · exact ⟨overlooks, fun _ read => read, rfl⟩

/-- So does every session. -/
theorem session_concurs (reworded : Source.Reworded left right) (operations : List Operation)
    (fits : ∀ operation ∈ operations, operation.Fits (Filter.Overlooks left right))
    (overlooks : walk.filter.Overlooks left right) (graph : Graph) :
    session right operations walk graph = session left operations walk graph ∧
      Unread left right walk graph (session left operations walk graph).2.1
        (session left operations walk graph).2.2 := by
  induction operations generalizing walk graph with
  | nil => exact ⟨rfl, overlooks, fun _ read => read, rfl⟩
  | cons operation rest inductionHypothesis =>
    obtain ⟨same, unread⟩ :=
      perform_concurs reworded (fits operation List.mem_cons_self) overlooks graph
    have others : ∀ operation ∈ rest, operation.Fits (Filter.Overlooks left right) :=
      fun operation member => fits operation (List.mem_cons_of_mem _ member)
    rcases ran : perform left operation walk graph with ⟨reply, between, store⟩
    rw [ran] at unread same
    obtain ⟨again, later⟩ := inductionHypothesis others unread.filter store
    refine ⟨by simp only [session, same, ran, again], ?_⟩
    simp only [session, ran]
    exact ⟨later.filter, fun id read => unread.bodyRead id (later.bodyRead id read),
      later.messages.trans unread.messages⟩

/-- Two readings that come to the same over an empty graph do so over all graphs, as long as each
graph is faithful to its source. -/
theorem exists_common {first second : Graph → α × β × Graph}
    (one : ∃ result last, ∀ graph, graph.Faithful left →
      ∃ kept, first graph = (result, last, kept) ∧ kept.Faithful left)
    (other : ∃ result last, ∀ graph, graph.Faithful right →
      ∃ kept, second graph = (result, last, kept) ∧ kept.Faithful right)
    (same : second {} = first {}) :
    ∃ result last, ∀ graph store, graph.Faithful left → store.Faithful right →
      ∃ kept rest, first graph = (result, last, kept) ∧ second store = (result, last, rest) := by
  obtain ⟨result, last, settled⟩ := one
  obtain ⟨_, _, again⟩ := other
  obtain ⟨_, ran, _⟩ := settled {} (Graph.faithful_empty left)
  obtain ⟨_, reran, _⟩ := again {} (Graph.faithful_empty right)
  rw [same, ran] at reran
  cases reran
  refine ⟨result, last, fun graph store faithful also => ?_⟩
  obtain ⟨kept, ran, _⟩ := settled graph faithful
  obtain ⟨rest, reran, _⟩ := again store also
  exact ⟨kept, rest, ran, reran⟩

/-- A filter that reads no messages cannot tell what commits say. In a session with such filters,
or asked about any commits, no message is kept in the graph and no commit is marked as read. Over
two sources that differ only in what commits say, a filter answers alike about any sequence of
commits, also where it fails, and counts alike, and a session has the same replies and leaves the
same walk, over whatever faithful graphs; provided that every needle of a filter occurs as often in
both commits of an identifier that stands in some tree as a file.

Proof: no operation fetches a message, so that over an empty graph each does the same for both
sources. What it does over one faithful graph it does over all of them. -/
theorem rewording_overlooked :
    (∀ (source : Source) (filter : Filter) (nodes : List Node) (graph : Graph),
      filter.needsMessage = false →
        (Filter.judgeEach source nodes filter graph).2.2.messages = graph.messages) ∧
    (∀ (source : Source) (operations : List Operation) (walk : Walk) (graph : Graph),
      walk.filter.needsMessage = false →
      (∀ operation ∈ operations, operation.Fits (·.needsMessage = false)) →
        (session source operations walk graph).2.2.messages = graph.messages ∧
        ∀ id, ((session source operations walk graph).2.1.marksOf id).bodyRead = true →
          (walk.marksOf id).bodyRead = true) ∧
    ∀ left right : Source, Source.Reworded left right →
      (∀ (filter : Filter) (nodes : List Node), filter.Overlooks left right →
        ∃ results last, ∀ graph store, graph.Faithful left → store.Faithful right →
          ∃ kept rest, Filter.judgeEach left nodes filter graph = (results, last, kept) ∧
            Filter.judgeEach right nodes filter store = (results, last, rest)) ∧
      ∀ (operations : List Operation) (walk : Walk), walk.filter.Overlooks left right →
        (∀ operation ∈ operations, operation.Fits (Filter.Overlooks left right)) →
          ∃ replies last, ∀ graph store, graph.Faithful left → store.Faithful right →
            ∃ kept rest, session left operations walk graph = (replies, last, kept) ∧
              session right operations walk store = (replies, last, rest) := by
  refine ⟨?_, ?_, fun left right reworded => ⟨?_, ?_⟩⟩
  · intro source filter nodes graph silent
    exact Filter.judgeEach_messages source silent nodes graph
  · intro source operations walk graph silent fits
    have quiet : ∀ operation ∈ operations, operation.Fits (Filter.Overlooks source source) :=
      fun operation member => (fits operation member).mono fun _ => .of_silent source
    have unread := (session_concurs (.refl source) operations quiet (.of_silent source silent)
      graph).2
    exact ⟨unread.messages, unread.bodyRead⟩
  · intro filter nodes overlooks
    exact exists_common (Filter.judgeEach_steady left nodes filter)
      (Filter.judgeEach_steady right nodes filter)
      (Filter.judgeEach_reworded reworded overlooks nodes {})
  · intro operations walk overlooks fits
    exact exists_common (session_replies left operations walk)
      (session_replies right operations walk)
      (session_concurs reworded operations fits overlooks {}).1

/-- A filter that counts a word of every commit, and includes one commit. -/
def counting : Filter := .both (.occurrences (.literal "tree")) (.atMost 1 0)

/-- A walk with that filter which starts from the commit that has another one as a file. -/
def countingWalk : List Operation :=
  [.set (.filter counting), .set (.mark (.start (.uniform 3))), .next, .next]

/-- The word occurs once in the commit that stands as a file, whichever letter the commit says. So
the filter answers alike over both sources, and so does the walk, and neither has kept a
message. -/
theorem rewording_overlooked_quoting :
    Source.Reworded (Filter.quoting [0x62]) (Filter.quoting [0x63]) ∧
      counting.Overlooks (Filter.quoting [0x62]) (Filter.quoting [0x63]) ∧
      (Filter.judgeEach (Filter.quoting [0x63]) [Filter.quoter, Filter.quoter] counting {}).1 =
        [.ok .include, .ok .stop] ∧
      (Filter.judgeEach (Filter.quoting [0x63]) [Filter.quoter, Filter.quoter] counting
        {}).2.2.messages = ∅ ∧
      (session (Filter.quoting [0x63]) countingWalk {} {}).1 =
        [.done, .done, .commit (some Filter.quoter), .commit none] ∧
      (session (Filter.quoting [0x63]) countingWalk {} {}).2.2.messages = ∅ := by
  have reworded := Filter.quoting_reworded [0x62] [0x63]
  have overlooks : counting.Overlooks (Filter.quoting [0x62]) (Filter.quoting [0x63]) := by
    refine ⟨rfl, fun needle member => ?_⟩
    obtain rfl := List.mem_singleton.mp member
    exact Needle.overlooks_storing (by decide +kernel) _ _
  have answered : (Filter.judgeEach (Filter.quoting [0x62]) [Filter.quoter, Filter.quoter] counting
      {}).1 = [.ok .include, .ok .stop] := by
    decide +kernel
  have walked : (session (Filter.quoting [0x62]) countingWalk {} {}).1 =
      [.done, .done, .commit (some Filter.quoter), .commit none] := by
    decide +kernel
  have fits : ∀ operation ∈ countingWalk,
      operation.Fits (Filter.Overlooks (Filter.quoting [0x62]) (Filter.quoting [0x63])) := by
    intro operation member
    simp only [countingWalk, List.mem_cons, List.not_mem_nil, or_false] at member
    rcases member with rfl | rfl | rfl | rfl
    · exact overlooks
    all_goals trivial
  have silent : ∀ operation ∈ countingWalk, operation.Fits (·.needsMessage = false) :=
    fun operation member => (fits operation member).mono fun _ overlooks => overlooks.silent
  obtain ⟨asks, walks, alike⟩ := rewording_overlooked
  obtain ⟨asksAlike, walksAlike⟩ := alike _ _ reworded
  obtain ⟨results, _, settled⟩ := asksAlike counting [Filter.quoter, Filter.quoter] overlooks
  obtain ⟨_, _, asked, again⟩ :=
    settled {} {} (Graph.faithful_empty _) (Graph.faithful_empty _)
  obtain ⟨replies, _, given⟩ := walksAlike countingWalk {} ⟨rfl, nofun⟩ fits
  obtain ⟨_, _, first, second⟩ :=
    given {} {} (Graph.faithful_empty _) (Graph.faithful_empty _)
  rw [asked] at answered
  rw [first] at walked
  exact ⟨reworded, overlooks, by rw [again]; exact answered,
    asks (Filter.quoting [0x63]) counting _ {} rfl, by rw [second]; exact walked,
    (walks (Filter.quoting [0x63]) countingWalk {} {} rfl silent).1⟩

end operations

end Walk

end Ancestry
