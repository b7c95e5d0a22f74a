import Ancestry.Proofs.Walk.Steadiness

/-!
# Walks that look alike

Two walks may have recorded the same marks in different sequences. Their records differ then,
but every question about them has the same answer. No operation can tell such walks apart: its
results are the same, and what it leaves looks alike again. Nor does any part of a traversal
change which commits are held back.
-/

namespace Ancestry.Walk

variable {α β : Type} {source : Source} {held : ObjectId → Bool} {left right : Walk}

/-- Walks of which every question has the same answer. In both of them the commits that are held
back are those of `held`. -/
structure Alike (held : ObjectId → Bool) (left right : Walk) : Prop where
  filter : left.filter = right.filter
  order : left.order = right.order
  phase : left.phase = right.phase
  marks : ∀ id, left.marksOf id = right.marksOf id
  pending : left.pending = right.pending
  interesting : left.interesting = right.interesting
  output : left.output = right.output
  held : ∀ id, (left.marksOf id).delayed = held id

/-- The same change of the same marks. -/
theorem Alike.mark (alike : Alike held left right) (id : ObjectId) {change : Marks → Marks}
    (steady : ∀ marks, (change marks).delayed = marks.delayed) :
    Alike held (left.mark id change) (right.mark id change) := by
  refine { alike with marks := fun other => ?_, held := fun other => ?_ }
  · rw [marksOf_mark, marksOf_mark, alike.marks, alike.marks]
  · rw [marksOf_mark, ← alike.held other]
    by_cases same : other = id
    · simp only [same, if_true, steady]
    · simp only [same, if_false]

/-- One more commit is held back. -/
theorem Alike.delay (alike : Alike held left right) (id : ObjectId) :
    Alike (fun other => if other = id then true else held other)
      (left.mark id ({ · with delayed := true })) (right.mark id ({ · with delayed := true })) := by
  refine { alike with marks := fun other => ?_, held := fun other => ?_ }
  · rw [marksOf_mark, marksOf_mark, alike.marks, alike.marks]
  · rw [marksOf_mark, ← alike.held other]
    by_cases same : other = id
    · simp only [same, if_true]
    · simp only [same, if_false]

/-- Discovering a node in walks that look alike leaves them so. -/
theorem Alike.discover (alike : Alike held left right) (node : Node) :
    Alike held (left.discover node) (right.discover node) := by
  unfold Walk.discover
  rw [alike.marks node.id]
  by_cases known : (right.marksOf node.id).discovered = true
  · simpa only [known, if_true] using alike
  · have marked : Alike held (left.mark node.id ({ · with discovered := true }))
        (right.mark node.id ({ · with discovered := true })) := alike.mark node.id fun _ => rfl
    simp only [known, if_false, Bool.false_eq_true, alike.pending, alike.interesting]
    exact { marked with pending := rfl, interesting := rfl }

/-- Walks that look alike do so with empty queues. -/
theorem Alike.clearPending (alike : Alike held left right) :
    Alike held left.clearPending right.clearPending :=
  { alike with pending := rfl, interesting := rfl }

/-- The same result and the same graph, with related walks. -/
structure Agree (related : Walk → Walk → Prop) (first second : Except Fault α × Walk × Graph) :
    Prop where
  result : first.1 = second.1
  walk : related first.2.1 second.2.1
  graph : first.2.2 = second.2.2

/-- An operation that answers related walks alike and leaves them related. -/
def Respects (related : Walk → Walk → Prop) (action : Action α) : Prop :=
  ∀ left right graph, related left right → Agree related (action left graph) (action right graph)

section parts

variable {related : Walk → Walk → Prop}

/-- Of two operations that respect a relation, one after the other does. -/
theorem Respects.andThen {first : Action α} {next : α → Action β}
    (respects : Respects related first) (rest : ∀ value, Respects related (next value)) :
    Respects related (first.andThen next) := by
  intro left right graph same
  have agree := respects left right graph same
  simp only [Action.andThen]
  generalize first left graph = ran at agree
  generalize first right graph = again at agree
  obtain ⟨result, after, kept⟩ := ran
  obtain ⟨others, other, store⟩ := again
  obtain ⟨rfl, walks, rfl⟩ := agree
  cases result with
  | error fault => exact ⟨rfl, walks, rfl⟩
  | ok value => exact rest value after other kept walks

/-- A change of the walk respects a relation that it keeps. -/
theorem Respects.giving {change : Walk → Walk} (value : α)
    (keeps : ∀ left right, related left right → related (change left) (change right)) :
    Respects related (Action.giving value change) :=
  fun left right _ same => ⟨rfl, keeps left right same, rfl⟩

/-- What respects a relation for each commit does so for all of them in turn. -/
theorem eachOf_respects {step : ObjectId → Action Unit} (each : ∀ id, Respects related (step id))
    (ids : List ObjectId) : Respects related (eachOf step ids) := by
  induction ids with
  | nil => exact fun _ _ _ same => ⟨rfl, same, rfl⟩
  | cons id rest inductionHypothesis =>
    rw [eachOf_cons]
    exact (each id).andThen fun _ => inductionHypothesis

/-- Fetching a node does not look at the walk. -/
theorem fetch_respects (id : ObjectId) : Respects related (fetch source id) :=
  fun _ _ _ same => ⟨rfl, same, rfl⟩

/-- Reading a message does not look at the walk. -/
theorem recite_respects (node : Node) : Respects related (recite source node) :=
  fun _ _ _ same => ⟨rfl, same, rfl⟩

/-- An end of the pass after a fault. -/
theorem guarded_respects {action : Action α} (respects : Respects related action)
    (aborts : ∀ left right, related left right → related left.abort right.abort) :
    Respects related (guarded action) := by
  intro left right graph same
  have agree := respects left right graph same
  simp only [guarded]
  generalize action left graph = ran at agree
  generalize action right graph = again at agree
  obtain ⟨result, after, kept⟩ := ran
  obtain ⟨others, other, store⟩ := again
  obtain ⟨rfl, walks, rfl⟩ := agree
  cases result with
  | error fault => exact ⟨rfl, aborts after other walks, rfl⟩
  | ok value => exact ⟨rfl, walks, rfl⟩

end parts

section marks

/-- Hiding a commit respects likeness where hiding what its parents lead to does. -/
theorem hideWithin_respects_of (most : Nat) (id : ObjectId)
    (parents : ∀ node, Respects (Alike held) (hideParents source most node)) :
    Respects (Alike held) (hideWithin source most id) := by
  intro left right graph alike
  rw [hideWithin_eq, hideWithin_eq, ← alike.marks]
  have hides : Alike held (left.mark id ({ · with uninteresting := true }))
      (right.mark id ({ · with uninteresting := true })) := alike.mark id fun _ => rfl
  cases (left.marksOf id).uninteresting with
  | true => exact ⟨rfl, alike, rfl⟩
  | false =>
    cases (left.marksOf id).headerRead with
    | true => exact (fetch_respects id).andThen parents _ _ graph hides
    | false =>
      cases (left.marksOf id).discovered with
      | true =>
        refine ⟨rfl, { hides with interesting := ?_ }, rfl⟩
        exact congrArg (· - 1) alike.interesting
      | false => exact ⟨rfl, hides, rfl⟩

/-- Hiding cannot tell walks that look alike apart, for every bound. -/
theorem hideWithin_respects (most : Nat) (id : ObjectId) :
    Respects (Alike held) (hideWithin source most id) := by
  induction most generalizing id with
  | zero => exact hideWithin_respects_of 0 id fun _ _ _ _ alike => ⟨rfl, alike, rfl⟩
  | succ most inductionHypothesis =>
    exact hideWithin_respects_of (most + 1) id fun node =>
      eachOf_respects inductionHypothesis node.parents.reverse

/-- Queueing a commit with its node cannot tell walks that look alike apart. -/
theorem welcome_respects (id : ObjectId) : Respects (Alike held) (welcome source id) := by
  intro left right graph alike
  rw [welcome_eq, welcome_eq, ← alike.marks]
  have queues : ∀ node, Respects (Alike held) (Action.giving () (Walk.discover · node)) :=
    fun node => .giving () fun _ _ same => same.discover node
  cases (left.marksOf id).discovered with
  | true => exact ⟨rfl, alike, rfl⟩
  | false => exact (fetch_respects id).andThen queues left right graph alike

/-- A look at a parent cannot tell walks that look alike apart. -/
theorem meetParent_respects (hidden : Bool) (parent : ObjectId) :
    Respects (Alike held) (meetParent source hidden parent) := by
  have first : Respects (Alike held) (veilParent source hidden parent) := by
    cases hidden with
    | false => exact fun _ _ _ alike => ⟨rfl, alike, rfl⟩
    | true => exact hideWithin_respects ObjectId.total parent
  rw [meetParent_eq]
  exact first.andThen fun _ => welcome_respects parent

/-- A look at all parents of a visited commit cannot tell walks that look alike apart. -/
theorem expand_respects (node : Node) (hidden : Bool) :
    Respects (Alike held) (expand source node hidden) := by
  intro left right graph alike
  exact eachOf_respects (meetParent_respects hidden) node.parents _ _ graph
    (alike.mark node.id fun _ => rfl)

end marks

section visits

/-- Reading a message marks the same commit in walks that look alike. -/
theorem body_respects (node : Node) : Respects (Alike held) (body source node) := by
  rw [body_eq]
  exact (recite_respects node).andThen fun message =>
    .giving message fun _ _ alike => alike.mark node.id fun _ => rfl

/-- Whether the filter needs a message is the same in walks that look alike. -/
theorem prepare_respects (node : Node) : Respects (Alike held) (prepare source node) := by
  intro left right graph alike
  rw [prepare_eq, prepare_eq, ← alike.filter]
  have reads : Respects (Alike held) ((body source node).andThen fun _ => .giving () id) :=
    (body_respects node).andThen fun _ => .giving () fun _ _ same => same
  cases left.filter.needsMessage with
  | true => exact reads left right graph alike
  | false => exact ⟨rfl, alike, rfl⟩

/-- The filter is asked the same question in walks that look alike. -/
theorem ask_respects (node : Node) : Respects (Alike held) (ask source node) := by
  intro left right graph alike
  simp only [ask, ← alike.filter]
  exact ⟨rfl, { alike with filter := rfl }, rfl⟩

/-- Deciding about a commit cannot tell walks that look alike apart. -/
theorem decideOn_respects (node : Node) : Respects (Alike held) (decideOn source node) := by
  have concludes : ∀ outcome, Respects (Alike held) (conclude node outcome) := by
    intro outcome left right graph alike
    have emits : Alike held (left.mark node.id ({ · with emitted := true }))
        (right.mark node.id ({ · with emitted := true })) := alike.mark node.id fun _ => rfl
    cases outcome with
    | «include» => exact ⟨rfl, emits, rfl⟩
    | exclude => exact ⟨rfl, alike, rfl⟩
    | stop => exact ⟨rfl, alike.clearPending, rfl⟩
  rw [decideOn_eq, judge_eq]
  exact ((prepare_respects node).andThen fun _ => ask_respects node).andThen concludes

/-- Meeting a commit that is not hidden cannot tell walks that look alike apart. -/
theorem meet_respects (node : Node) : Respects (Alike held) (meet source node) := by
  intro left right graph alike
  simp only [meet, ← alike.marks]
  have first : Respects (Alike held)
      ((expand source node (left.marksOf node.id).uninteresting).andThen fun _ =>
        .giving (left.marksOf node.id).uninteresting id) :=
    (expand_respects node _).andThen fun _ => .giving _ fun _ _ same => same
  refine first _ _ graph { alike with pending := ?_, interesting := ?_ }
  · exact congrArg List.tail alike.pending
  · simp only [dequeue, alike.interesting]

/-- What becomes of a visited commit is the same in walks that look alike. -/
theorem settle_respects (node : Node) (hidden : Bool) :
    Respects (Alike held) (settle source node hidden) := by
  intro left right graph alike
  cases hidden with
  | false => exact decideOn_respects node left right graph alike
  | true =>
    simp only [settle, if_true, ← alike.interesting]
    by_cases none : left.interesting = 0
    · simpa only [none, if_true] using ⟨rfl, alike.clearPending, rfl⟩
    · simpa only [none, if_false] using ⟨rfl, alike, rfl⟩

/-- A visit cannot tell walks that look alike apart. -/
theorem visit_respects (node : Node) : Respects (Alike held) (visit source node) := by
  rw [visit_eq]
  exact (meet_respects node).andThen (settle_respects node)

end visits

section requests

variable {visit : Node → Action Verdict} {search : Action (Option Node)}

/-- A search respects likeness where its visits and the search behind the first node do. -/
theorem searchFirst_respects {rest : Action (Option Node)}
    (visits : ∀ node, Respects (Alike held) (visit node)) (rests : Respects (Alike held) rest) :
    Respects (Alike held) (searchFirst visit rest) := by
  have resumes : ∀ node verdict, Respects (Alike held) (resume node rest verdict) := by
    intro node verdict
    cases verdict with
    | emit => exact .giving (some node) fun _ _ alike => alike
    | finish => exact .giving none fun _ _ alike => alike
    | pass => exact rests
  intro left right graph alike
  cases first : left.pending with
  | nil =>
    rw [searchFirst_nil visit rest graph first,
      searchFirst_nil visit rest graph (alike.pending ▸ first)]
    exact ⟨rfl, alike, rfl⟩
  | cons node later =>
    rw [searchFirst_cons visit rest graph first,
      searchFirst_cons visit rest graph (alike.pending ▸ first)]
    exact (visits node).andThen (resumes node) left right graph alike

/-- A search respects likeness where its visits do, by induction on the bound. -/
theorem searchBy_respects (visits : ∀ node, Respects (Alike held) (visit node)) (most : Nat) :
    Respects (Alike held) (searchBy visit most) := by
  induction most with
  | zero => exact searchFirst_respects visits (.giving none fun _ _ alike => alike)
  | succ most inductionHypothesis => exact searchFirst_respects visits inductionHypothesis

/-- Gathering one more commit respects likeness where gathering the rest does. -/
theorem gather_respects {rest : Action (List Node)} (rests : Respects (Alike held) rest)
    (found : Option Node) : Respects (Alike held) (gather rest found) := by
  cases found with
  | none => exact .giving [] fun _ _ alike => alike
  | some node => exact rests.andThen fun nodes => .giving (node :: nodes) fun _ _ alike => alike

/-- Collecting respects likeness where the search that it repeats does. -/
theorem collectBy_respects (searches : Respects (Alike held) search) (most : Nat) :
    Respects (Alike held) (collectBy search most) := by
  induction most with
  | zero => exact searches.andThen (gather_respects (.giving [] fun _ _ alike => alike))
  | succ most inductionHypothesis => exact searches.andThen (gather_respects inductionHypothesis)

/-- The next commit by time is the same in walks that look alike. -/
theorem nextByTime_respects : Respects (Alike held) (nextByTime source) := by
  rw [nextByTime, ← searchBy_visit]
  exact searchBy_respects visit_respects ObjectId.total

/-- Walks that look alike, whatever is held back. -/
def Twins (left right : Walk) : Prop := ∃ held, Alike held left right

/-- What respects every likeness respects twins, whatever they hold back. -/
theorem Respects.twins {action : Action α} (respects : ∀ held, Respects (Alike held) action) :
    Respects Twins action := by
  rintro left right graph ⟨held, alike⟩
  have agree := respects held left right graph alike
  exact ⟨agree.result, ⟨held, agree.walk⟩, agree.graph⟩

/-- Commits that are held back in both walks. -/
theorem Twins.delay (nodes : List Node) (twins : Twins left right) :
    Twins (nodes.foldl (fun walk node => walk.mark node.id ({ · with delayed := true })) left)
      (nodes.foldl (fun walk node => walk.mark node.id ({ · with delayed := true })) right) := by
  induction nodes generalizing left right with
  | nil => exact twins
  | cons node rest inductionHypothesis =>
    obtain ⟨held, alike⟩ := twins
    exact inductionHypothesis ⟨_, alike.delay node.id⟩

/-- Arranging holds back what the topological order leaves out. -/
theorem arrange_walk (walk : Walk) (nodes : List Node) :
    (walk.arrange nodes).2 =
      if walk.order.topological then
        (Topological.sort nodes).2.foldl
          (fun walk node => walk.mark node.id ({ · with delayed := true })) walk
      else walk := by
  by_cases topological : walk.order.topological = true
  · simp only [Walk.arrange, topological, if_true]
  · simp only [Walk.arrange, topological, if_false, Bool.false_eq_true]

/-- Twins put commits into the same order, and hold back the same ones. -/
theorem Twins.arrange (nodes : List Node) (twins : Twins left right) :
    (left.arrange nodes).1 = (right.arrange nodes).1 ∧
      Twins (left.arrange nodes).2 (right.arrange nodes).2 := by
  have order : left.order = right.order := twins.elim fun _ alike => alike.order
  obtain ⟨_, first⟩ := arrange_arranges left nodes
  obtain ⟨_, second⟩ := arrange_arranges right nodes
  refine ⟨by rw [first, second, order], ?_⟩
  rw [arrange_walk, arrange_walk, order]
  by_cases topological : right.order.topological = true
  · rw [if_pos topological, if_pos topological]
    exact twins.delay (Topological.sort nodes).2
  · rw [if_neg topological, if_neg topological]
    exact twins

/-- Keeping what was collected leaves twins. -/
theorem keep_respects (nodes : List Node) : Respects Twins (keep nodes) := by
  intro left right graph twins
  obtain ⟨same, held, alike⟩ := twins.arrange nodes
  exact ⟨rfl, ⟨held, { alike with output := congrArg some same }⟩, rfl⟩

/-- Twins whose pass is over are twins. -/
theorem Twins.abort (twins : Twins left right) : Twins left.abort right.abort := by
  obtain ⟨held, alike⟩ := twins
  exact ⟨held, { alike.clearPending with phase := rfl, output := rfl }⟩

/-- Twins that enter a phase are twins. -/
theorem Twins.enter (twins : Twins left right) (phase : Phase) :
    Twins { left with phase } { right with phase } := by
  obtain ⟨held, alike⟩ := twins
  exact ⟨held, { alike with phase := rfl }⟩

/-- Starting a pass leaves twins where its search respects every likeness. -/
theorem startBy_respects (searches : ∀ held, Respects (Alike held) search) :
    Respects Twins (startBy search) := by
  intro left right graph twins
  have order : left.order = right.order := twins.elim fun _ alike => alike.order
  have collects : Respects Twins (guarded (collectBy search ObjectId.total)) :=
    guarded_respects (.twins fun held => collectBy_respects (searches held) _) fun _ _ =>
      Twins.abort
  have running := twins.enter .running
  rw [startBy, startBy]
  by_cases all : right.order.needsAll = true
  · rw [if_pos all, if_pos (order ▸ all)]
    exact collects.andThen keep_respects _ _ graph running
  · rw [if_neg all, if_neg (order ▸ all)]
    exact ⟨rfl, running, rfl⟩

/-- The next commit of a started pass is the same for twins. -/
theorem proceedBy_respects (searches : ∀ held, Respects (Alike held) search) :
    Respects Twins (proceedBy search) := by
  rintro left right graph ⟨held, alike⟩
  have output := alike.output
  cases kept : right.output with
  | none =>
    simp only [proceedBy, output, kept]
    exact Respects.twins searches left right graph ⟨held, alike⟩
  | some nodes =>
    cases nodes with
    | nil =>
      simp only [proceedBy, output, kept]
      exact ⟨rfl, ⟨held, alike⟩, rfl⟩
    | cons node rest =>
      simp only [proceedBy, output, kept]
      exact ⟨rfl, ⟨held, { alike with output := rfl }⟩, rfl⟩

/-- Going on with a pass is the same for twins. -/
theorem continuedBy_respects (searches : ∀ held, Respects (Alike held) search) :
    Respects Twins (continuedBy search) := by
  refine (guarded_respects (proceedBy_respects searches) fun _ _ => Twins.abort).andThen ?_
  refine fun found => .giving found fun left right twins => ?_
  cases found with
  | none => exact twins.enter .exhausted
  | some node => exact twins

/-- A request is the same for twins, also where it fails and ends the pass. -/
theorem requestBy_respects (searches : ∀ held, Respects (Alike held) search) :
    Respects Twins (requestBy search) := by
  intro left right graph twins
  have phase : left.phase = right.phase := twins.elim fun _ alike => alike.phase
  have continues := continuedBy_respects searches
  rw [requestBy, requestBy, ← phase]
  cases left.phase with
  | exhausted => exact ⟨rfl, twins, rfl⟩
  | running => exact continues left right graph twins
  | configured =>
    exact ((startBy_respects searches).andThen fun _ => continues) left right graph twins

/-- Requests to walks that look alike have the same answers. -/
theorem next_respects : Respects Twins (next source) := by
  rw [← requestBy_next]
  exact requestBy_respects fun _ => nextByTime_respects

end requests

section passes

variable {graph store kept : Graph} {given : List Node} {ending : Option Fault} {after : Walk}

/-- Over any two faithful graphs, walks that look alike have the same answer. -/
theorem Twins.next (twins : Twins left right) (faithful : graph.Faithful source)
    (other : store.Faithful source) {result : Except Fault (Option Node)}
    (ran : Walk.next source left graph = (result, after, kept)) :
    ∃ twin last, Walk.next source right store = (result, twin, last) ∧ Twins after twin ∧
      kept.Faithful source ∧ last.Faithful source := by
  have agree : Agree Twins (Walk.next source left graph) (Walk.next source right graph) :=
    next_respects left right graph twins
  obtain ⟨same, twin, _, settled⟩ : Steady source right (Walk.next source right) :=
    next_steady right
  obtain ⟨between, answered, left⟩ := settled graph faithful
  obtain ⟨last, again, right⟩ := settled store other
  rw [ran, answered] at agree
  obtain ⟨rfl, walks, rfl⟩ := agree
  exact ⟨twin, last, again, walks, left, right⟩

/-- Walks that look alike give the same commits, end alike, and look alike in the end. -/
theorem Pass.twin (pass : Pass source left graph given ending after kept)
    (twins : Twins left right) (faithful : graph.Faithful source)
    (other : store.Faithful source) :
    ∃ twin last, Pass source right store given ending twin last ∧ Twins after twin := by
  induction pass generalizing right store with
  | ended ran =>
    obtain ⟨twin, last, again, walks, _⟩ := twins.next faithful other ran
    exact ⟨twin, last, .ended again, walks⟩
  | failed ran =>
    obtain ⟨twin, last, again, walks, _⟩ := twins.next faithful other ran
    exact ⟨twin, last, .failed again, walks⟩
  | gave ran pass inductionHypothesis =>
    obtain ⟨between, store, again, walks, faithful, other⟩ := twins.next faithful other ran
    obtain ⟨twin, last, rest, alike⟩ := inductionHypothesis walks faithful other
    exact ⟨twin, last, .gave again rest, alike⟩

end passes

end Ancestry.Walk
