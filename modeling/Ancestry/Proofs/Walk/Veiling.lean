import Ancestry.Proofs.Walk.Lowering
import Ancestry.Proofs.Walk.Stacking

/-!
# What is hidden between operations

As long as no request of a pass has failed, a commit is hidden exactly if one of the commits that
were to be hidden leads to it through visited commits. So every hidden commit is reached from one
that was to be hidden, and the parents of a hidden commit that was visited are hidden as well. In
the middle of a visit this is not so: the commit is visited before its parents are hidden, and
they are hidden one by one. Where such a visit fails it stays like that.
-/

namespace Ancestry

namespace Event

variable {event : Event}

/-- No request has failed since the last reset. -/
def Unfailed (events : List Event) : Prop := ∀ fault, Reply.failed fault ∉ answers (pass events)

/-- What was set since the last reset. -/
def settings (events : List Event) : List Setting := chosen (pass events)

/-- With a reset nothing is set. -/
theorem settings_reset (events : List Event) (reply : Reply) :
    settings (events ++ [(.reset, reply)]) = [] := by
  rw [settings, pass, List.rtakeWhile_concat_neg _ _ _ (by simp [Operation.isReset])]
  rfl

/-- Every other operation adds what it sets. -/
theorem settings_more (events : List Event) (going : event.1.isReset = false) :
    settings (events ++ [event]) = settings events ++ chosen [event] := by
  rw [settings, pass_more events going, chosen, List.filterMap_append]
  rfl

/-- That is nothing where it is no setting. -/
theorem settings_other {operation : Operation} (events : List Event) (reply : Reply)
    (going : operation.isReset = false) (other : operation.setting? = none) :
    settings (events ++ [(operation, reply)]) = settings events := by
  rw [settings_more events going, Walk.chosen_none reply other, List.append_nil]

/-- No request had failed before. -/
theorem Unfailed.before {events : List Event} (unfailed : Unfailed (events ++ [event]))
    (going : event.1.isReset = false) : Unfailed events := by
  intro fault member
  apply unfailed fault
  rw [pass_more events going, answers, List.filterMap_append]
  exact List.mem_append_left _ member

/-- A request that did not fail has a result. -/
theorem Unfailed.last {events : List Event} {result : Except Fault (Option Node)}
    (unfailed : Unfailed (events ++ [(.next, .ofResult .commit result)])) :
    ∃ found, result = .ok found := by
  cases result with
  | ok found => exact ⟨found, rfl⟩
  | error fault =>
    refine absurd ?_ (unfailed fault)
    rw [answers_next]
    exact List.mem_append_right _ List.mem_cons_self

end Event

/-- A setting adds its mark, if it is one. -/
theorem Setting.marks_more (settings : List Setting) (setting : Setting) :
    marks (settings ++ [setting]) = marks settings ++ setting.mark?.toList := by
  rw [marks, List.filterMap_append]
  cases told : setting.mark? <;> simp [marks, told]

namespace Walk

variable {source : Source} {walk after met other : Walk} {graph kept : Graph} {node : Node}
  {rest : List Node} {roots hidden : List ObjectId} {found : Option Node} {replies : List Reply}

/-- The marks are exact, and what was visited can be read. This holds of a walk that is over, too,
of which the queue is forgotten. -/
structure Traced (source : Source) (roots hidden : List ObjectId) (walk : Walk) : Prop where
  exact : walk.Exact source roots hidden
  entered : ∀ id, walk.Visited id → source.Resolves id

/-- A settled walk is traced. -/
theorem Settled.traced (settled : walk.Settled source roots hidden) :
    walk.Traced source roots hidden :=
  ⟨settled.exact, fun id visited => (settled.consistent.entered id visited).2⟩

/-- To be traced is a matter of the state. -/
theorem Traced.congr (traced : walk.Traced source roots hidden) (same : SameState walk other) :
    other.Traced source roots hidden :=
  ⟨traced.exact.congr same, fun id visited => traced.entered id ((same.visited id).mpr visited)⟩

/-- Queue and counter do not matter. -/
theorem Traced.queue (traced : walk.Traced source roots hidden) (pending : List Node)
    (interesting : Nat) : { walk with pending, interesting }.Traced source roots hidden :=
  ⟨⟨traced.exact.discovered, traced.exact.hidden⟩, traced.entered⟩

/-- Every hidden commit is reached from one that was to be hidden. -/
theorem Traced.sound (traced : walk.Traced source roots hidden) {id : ObjectId}
    (veiled : walk.Hidden id) : source.Reached hidden id :=
  Source.reached_of_leads ((traced.exact.hidden id).mp veiled)

/-- The parents of a hidden commit that was visited are hidden. -/
theorem Traced.closed (traced : walk.Traced source roots hidden) {id : ObjectId}
    (veiled : walk.Hidden id) (visited : walk.Visited id) :
    ∃ node, source.node id = .ok node ∧ ∀ parent ∈ node.parents, walk.Hidden parent := by
  obtain ⟨node, resolved⟩ := traced.entered id visited
  refine ⟨node, resolved, fun parent member => (traced.exact.hidden parent).mpr ?_⟩
  exact Source.leads_step ((traced.exact.hidden id).mp veiled) visited
    ((Source.parent_iff resolved).mpr member)

section searches

/-- What follows after the parents of a commit were met changes none of these marks. -/
theorem Proceeds.traced {result : Except Fault Verdict}
    (proceeds : Proceeds source node walk met result after)
    (traced : met.Traced source roots hidden) : after.Traced source roots hidden := by
  cases proceeds with
  | ended => exact traced.queue [] 0
  | skipped => exact traced
  | judged _ _ _ decides =>
    exact (traced.congr decides.marks).queue after.pending after.interesting

/-- What a search leaves that did not fail. It can go on where a commit was found. -/
structure Leaving (source : Source) (roots hidden : List ObjectId) (goes : Prop) (after : Walk)
    (kept : Graph) : Prop where
  traced : after.Traced source roots hidden
  faithful : kept.Faithful source
  consistent : goes → after.Consistent source

/-- A search that can go on leaves a settled walk. -/
theorem Leaving.settled {goes : Prop} (leaving : Leaving source roots hidden goes after kept)
    (on : goes) : after.Settled source roots hidden :=
  ⟨leaving.consistent on, leaving.traced.exact⟩

/-- A visit that does not fail keeps the marks exact. -/
theorem visit_leaving {verdict : Verdict} (settled : walk.Settled source roots hidden)
    (faithful : graph.Faithful source) (first : walk.pending = node :: rest)
    (ran : visit source node walk graph = (.ok verdict, after, kept)) :
    Leaving source roots hidden (verdict ≠ .finish) after kept := by
  obtain ⟨_, _, _, again, stillFaithful, stuck | ⟨met, _, advances, proceeds⟩⟩ :=
    visit_cases settled.consistent faithful first
  · obtain ⟨fault, rfl, _⟩ := stuck
    rw [ran] at again
    cases again
  · rw [ran] at again
    cases again
    exact ⟨proceeds.traced (advances.settled settled).traced, stillFaithful, fun going =>
      (visit_consistent settled.consistent faithful first ran going).1⟩

/-- So does a search, if it does so after its first visit. -/
theorem searchFirst_leaving {search : Action (Option Node)}
    (settled : walk.Settled source roots hidden) (faithful : graph.Faithful source)
    (later : ∀ between store, between.Settled source roots hidden → store.Faithful source →
      search between store = (.ok found, after, kept) →
        Leaving source roots hidden (found.isSome = true) after kept)
    (ran : searchFirst (visit source) search walk graph = (.ok found, after, kept)) :
    Leaving source roots hidden (found.isSome = true) after kept := by
  cases first : walk.pending with
  | nil =>
    rw [searchFirst_nil _ search graph first] at ran
    cases ran
    exact ⟨settled.traced, faithful, fun _ => settled.consistent⟩
  | cons head rest =>
    rw [searchFirst_cons _ search graph first] at ran
    obtain ⟨verdict, between, store, visited, resumed⟩ := Action.of_andThen ran
    have leaving := visit_leaving settled faithful first visited
    cases verdict with
    | finish =>
      cases resumed
      exact ⟨leaving.traced, leaving.faithful, nofun⟩
    | emit =>
      cases resumed
      exact ⟨leaving.traced, leaving.faithful, fun _ => leaving.consistent nofun⟩
    | pass =>
      exact later between store (leaving.settled nofun) leaving.faithful resumed

/-- A search for a commit, whatever its bound is. -/
theorem nextWithin_leaving (most : Nat) (settled : walk.Settled source roots hidden)
    (faithful : graph.Faithful source)
    (ran : nextWithin source most walk graph = (.ok found, after, kept)) :
    Leaving source roots hidden (found.isSome = true) after kept := by
  induction most generalizing walk graph with
  | zero =>
    rw [nextWithin_eq] at ran
    refine searchFirst_leaving settled faithful ?_ ran
    intro between store settled faithful none
    cases none
    exact ⟨settled.traced, faithful, nofun⟩
  | succ most inductionHypothesis =>
    rw [nextWithin_eq] at ran
    exact searchFirst_leaving settled faithful (fun _ _ => inductionHypothesis) ran

/-- A search for all commits. -/
theorem collectWithin_traced {nodes : List Node} (most : Nat)
    (settled : walk.Settled source roots hidden) (faithful : graph.Faithful source)
    (ran : collectWithin source most walk graph = (.ok nodes, after, kept)) :
    after.Traced source roots hidden := by
  induction most generalizing walk graph nodes with
  | zero =>
    rw [collectWithin_eq] at ran
    obtain ⟨found, between, store, searched, gathered⟩ := Action.of_andThen ran
    have leaving := nextWithin_leaving ObjectId.total settled faithful searched
    cases found <;> cases gathered <;> exact leaving.traced
  | succ most inductionHypothesis =>
    rw [collectWithin_eq] at ran
    obtain ⟨found, between, store, searched, gathered⟩ := Action.of_andThen ran
    have leaving := nextWithin_leaving ObjectId.total settled faithful searched
    cases found with
    | none =>
      cases gathered
      exact leaving.traced
    | some node =>
      obtain ⟨others, last, final, collected, given⟩ := Action.of_andThen gathered
      cases given
      exact inductionHypothesis (leaving.settled rfl) leaving.faithful collected

end searches

section requests

/-- A pass that goes on with what was kept. -/
theorem Traced.continued_kept {nodes : List Node} (traced : walk.Traced source roots hidden)
    (output : walk.output = some nodes)
    (ran : continued source walk graph = (.ok found, after, kept)) :
    after.Traced source roots hidden := by
  have same : SameState walk (continued source walk graph).2.1 := Walk.continued_kept output graph
  rw [ran] at same
  exact traced.congr same

/-- A pass that goes on, by a search or with what was kept. -/
theorem continued_traced (traced : walk.Traced source roots hidden)
    (consistent : walk.output = none → walk.Consistent source) (faithful : graph.Faithful source)
    (ran : continued source walk graph = (.ok found, after, kept)) :
    after.Traced source roots hidden := by
  cases output : walk.output with
  | some nodes => exact traced.continued_kept output ran
  | none =>
    have settled : walk.Settled source roots hidden := ⟨consistent output, traced.exact⟩
    rw [continued_eq output] at ran
    rcases searched : nextByTime source walk graph with ⟨fault | answer, between, store⟩
    · rw [searched] at ran
      cases ran
    · rw [searched] at ran
      have leaving := nextWithin_leaving ObjectId.total settled faithful searched
      cases answer with
      | none =>
        cases ran
        exact leaving.traced.congr (phase_state between .exhausted between.output)
      | some node =>
        cases ran
        exact leaving.traced

/-- A request that does not fail, in every phase. -/
theorem next_traced (stage : Stage source walk replies) (traced : walk.Traced source roots hidden)
    (faithful : graph.Faithful source) (ran : next source walk graph = (.ok found, after, kept)) :
    after.Traced source roots hidden := by
  cases phase : walk.phase with
  | exhausted =>
    rw [next_exhausted phase] at ran
    cases ran
    exact traced
  | running =>
    simp only [next, phase] at ran
    exact continued_traced traced (stage.searches (by simp [phase])) faithful ran
  | configured =>
    have output := stage.output_none phase
    have consistent := stage.searches (by simp [phase]) output
    have started := traced.congr (running_state walk)
    cases byTime : walk.order.needsAll with
    | false =>
      rw [next_open ⟨byTime, by simp [phase], output⟩] at ran
      exact continued_traced started (fun _ => consistent.congr (running_state walk)) faithful ran
    | true =>
      simp only [next, phase, start, byTime, if_true, guarded] at ran
      rcases collected : collect source { walk with phase := .running } graph with
        ⟨fault | nodes, between, store⟩
      · simp only [collected] at ran
        cases ran
      · simp only [collected] at ran
        have settled : walk.running.Settled source roots hidden :=
          ⟨consistent.congr (running_state walk), started.exact⟩
        have gathered := collectWithin_traced ObjectId.total settled faithful collected
        have arranged := (arrange_state between nodes).trans
          (phase_state _ (between.arrange nodes).2.phase (some (between.arrange nodes).1))
        exact (gathered.congr arranged).continued_kept rfl ran

end requests

section settings

variable {settings : List Setting}

/-- A walk that waits for its pass is marked for whatever its marks are exact for: nothing has been
visited, so that a path leads no further than its root. -/
theorem Traced.marked {others veiled : List ObjectId} (traced : walk.Traced source roots hidden)
    (marked : walk.Marked source others veiled) : walk.Marked source roots hidden where
  consistent := marked.consistent
  phase := marked.phase
  unvisited := marked.unvisited
  discovered id := (traced.exact.discovered id).trans (Source.leads_none marked.unvisited id)
  hidden id := (traced.exact.hidden id).trans (Source.leads_none marked.unvisited id)

/-- The marks are exact for what some settings tell. -/
def Tracks (source : Source) (settings : List Setting) (walk : Walk) : Prop :=
  walk.Traced source (Setting.commits settings) (Setting.hides settings)

/-- A filter or an order can be chosen without a change of marks. -/
theorem Tracks.choose (tracks : Tracks source settings walk) (setting : Setting)
    (unmarked : setting.mark? = none) (filter : Filter) (order : Order) :
    Tracks source (settings ++ [setting]) { walk with filter, order } := by
  have same : Setting.marks (settings ++ [setting]) = Setting.marks settings := by
    rw [Setting.marks_more, unmarked]
    exact List.append_nil _
  rw [Tracks, Setting.commits, Setting.hides, same]
  exact tracks.congr (choice_state walk filter order)

/-- A mark that is done adds its commit. -/
theorem Marked.tracks {mark : Mark}
    (marked : walk.Marked source (Setting.commits settings) (Setting.hides settings))
    (tells : Told source mark walk after) (resolved : source.node mark.id = .ok node) :
    Tracks source (settings ++ [.mark mark]) after := by
  have resolving : Mark.resolving source [mark] = [mark] := by
    apply Mark.resolving_all
    intro other member
    obtain rfl := List.mem_singleton.mp member
    exact ⟨node, resolved⟩
  have traced := (tells.marked marked).settled.traced
  simp only [Mark.roots, Mark.veiled, resolving] at traced
  rw [Tracks, Setting.commits, Setting.hides, Setting.marks_more, List.map_append,
    List.filterMap_append]
  exact traced

/-- A walk that waits for its pass is marked for something. -/
theorem Stage.marked (stage : Stage source walk replies) (waits : walk.phase = .configured) :
    ∃ roots hidden, walk.Marked source roots hidden := by
  cases stage with
  | waiting marked => exact ⟨_, _, marked⟩
  | giving phase | finished phase => cases phase.symm.trans waits

/-- Whether it is done or not, the marks stay exact for the settings that were done. -/
theorem Stage.tracks {reply : Reply} (stage : Stage source walk replies)
    (tracks : Tracks source settings walk) (faithful : graph.Faithful source) (setting : Setting)
    (ran : Walk.perform source (.set setting) walk graph = (reply, after, kept)) :
    Tracks source (settings ++ Event.chosen [(.set setting, reply)]) after := by
  by_cases waits : walk.phase = .configured
  · obtain ⟨_, _, marked⟩ := stage.marked waits
    have marked := Traced.marked tracks marked
    cases setting with
    | filter filter =>
      have done : setFilter filter walk graph = (.ok (), { walk with filter }, graph) :=
        if_pos waits
      simp only [Walk.perform, Setting.action, done] at ran
      cases ran
      exact tracks.choose (.filter filter) rfl filter walk.order
    | order order =>
      have done : setOrder order walk graph = (.ok (), { walk with order }, graph) :=
        if_pos waits
      simp only [Walk.perform, Setting.action, done] at ran
      cases ran
      exact tracks.choose (.order order) rfl walk.filter order
    | mark mark =>
      cases resolved : source.node mark.id with
      | error fault =>
        simp only [Walk.perform, Setting.action, marked.action_fails mark faithful resolved] at ran
        cases ran
        exact (List.append_nil settings).symm ▸ tracks
      | ok node =>
        obtain ⟨_, _, done, _, told⟩ := action_told mark marked faithful
        rw [resolved] at done
        simp only [Walk.perform, Setting.action, done] at ran
        cases ran
        exact marked.tracks told resolved
  · have begun : replies ≠ [] := fun none => waits (stage.waits_iff.mpr none)
    have refused := (stage.refuses begun setting graph).ran
    rw [ran] at refused
    cases refused
    exact (List.append_nil settings).symm ▸ tracks

end settings

section histories

variable {events : List Event}

/-- In every history of which no request has failed since the last reset, the marks are exact for
what was set since then. -/
theorem History.tracks (history : History source events walk) (unfailed : Event.Unfailed events) :
    Tracks source (Event.settings events) walk := by
  induction history with
  | new => exact (marked_new source .everything {}).settled.traced
  | @more events walk after graph kept operation reply history faithful ran inductionHypothesis =>
    cases operation with
    | reset =>
      cases ran
      rw [Event.settings_reset]
      exact (marked_new source walk.filter.fresh walk.order).settled.traced
    | set setting =>
      rw [Event.settings_more events rfl]
      exact history.stage.tracks (inductionHypothesis (unfailed.before rfl)) faithful setting ran
    | next =>
      have tracks := inductionHypothesis (unfailed.before rfl)
      rcases asked : next source walk graph with ⟨result, between, store⟩
      simp only [perform, asked] at ran
      cases ran
      obtain ⟨found, rfl⟩ := unfailed.last
      rw [Event.settings_other events _ rfl rfl]
      exact next_traced history.stage tracks faithful asked
    | body node =>
      have tracks := inductionHypothesis (unfailed.before rfl)
      rw [Event.settings_other events _ rfl rfl]
      rcases read : graph.message source node with ⟨fault | text, store⟩
      · simp only [perform, body, read] at ran
        cases ran
        exact tracks
      · simp only [perform, body, read] at ran
        cases ran
        have same := mark_state walk node.id ({ · with bodyRead := true }) fun _ => ⟨rfl, rfl, rfl⟩
        exact tracks.congr same
    | marks | describe =>
      cases ran
      rw [Event.settings_other events _ rfl rfl]
      exact inductionHypothesis (unfailed.before rfl)

/-- What is hidden is sound and closed. Whatever has been done with a walk, and however the commit
times and the sequence of marks and requests are: as long as no request has failed since the last
reset, every hidden commit is reached from one that the walk was told to hide since then, and all
parents of a hidden commit that was visited are hidden. Hiding is a loop over a stack, and the loop
ends from every stack, in every walk and with every graph and source, with one result.

Proof: the marks of a walk are exact for what it was told since the last reset, and every
operation keeps them so. The loop comes to what hiding the commits on its stack comes to, one
after another. -/
theorem hidden_closed (source : Source) :
    (∀ (events : List Event) (walk : Walk), History source events walk → Event.Unfailed events →
      (∀ id, walk.Hidden id → source.Reached (Setting.hides (Event.settings events)) id) ∧
      ∀ id, walk.Hidden id → walk.Visited id →
        ∃ node, source.node id = .ok node ∧ ∀ parent ∈ node.parents, walk.Hidden parent) ∧
    (∀ stack, ∃! result, Rounds source stack result) ∧
    ∀ id walk graph, Rounds source ⟨[id], walk, graph⟩ (carryHidden source id walk graph) := by
  refine ⟨?_, exists_rounds source, rounds_carryHidden source⟩
  intro events walk history unfailed
  have tracks := history.tracks unfailed
  exact ⟨fun _ veiled => tracks.sound veiled, fun _ veiled visited => tracks.closed veiled visited⟩

/-- Two commits that are parents of each other, and an older one of which one of them is the
parent. -/
def knot : Source :=
  .bare [(.uniform 1, [.uniform 2], 3), (.uniform 2, [.uniform 1], 2),
    (.uniform 3, [.uniform 1], 1)]

/-- A walk over the knot starts from the first commit and is to hide the third. -/
def knotting : List Operation :=
  [.set (.mark (.start (.uniform 1))), .set (.mark (.hide (.uniform 3))), .next, .next, .next]

/-- The replies to that. -/
def knotted : List Reply :=
  [.done, .done, .commit (some ⟨.uniform 1, .zero, [.uniform 2], 3⟩),
    .commit (some ⟨.uniform 2, .zero, [.uniform 1], 2⟩), .commit none]

/-- The walk has given both commits before it visits the one that is hidden. Both are
hidden then, although they were visited, and hiding has come to an end. -/
theorem hidden_closed_knot :
    ∃ walk, History knot (knotting.zip knotted) walk ∧ Event.Unfailed (knotting.zip knotted) ∧
      walk.Hidden (.uniform 2) ∧ walk.Visited (.uniform 2) ∧
      knot.Reached [.uniform 3] (.uniform 2) ∧
      ∃ node, knot.node (.uniform 2) = .ok node ∧ ∀ parent ∈ node.parents, walk.Hidden parent := by
  have both : (session knot knotting {} {}).1 = knotted ∧
      (session knot knotting {} {}).2.1.marksOf (.uniform 2) =
        { discovered := true, headerRead := true, emitted := true, uninteresting := true } := by
    decide +kernel
  obtain ⟨answered, marked⟩ := both
  obtain ⟨walk, _, ran, history, _⟩ := exists_history answered
  rw [ran] at marked
  have veiled : walk.Hidden (.uniform 2) := congrArg Marks.uninteresting marked
  have visited : walk.Visited (.uniform 2) := congrArg Marks.headerRead marked
  have unfailed : Event.Unfailed (knotting.zip knotted) := by
    intro fault failed
    simp [knotting, knotted, Event.answers, Event.answer?, Event.pass, List.rtakeWhile,
      Operation.isReset] at failed
  obtain ⟨sound, closed⟩ := (hidden_closed knot).1 _ walk history unfailed
  exact ⟨walk, history, unfailed, veiled, visited, sound _ veiled, closed _ veiled visited⟩

end histories

end Walk

end Ancestry
