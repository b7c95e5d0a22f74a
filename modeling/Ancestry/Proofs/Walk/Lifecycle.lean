import Ancestry.Proofs.Walk.Collecting
import Ancestry.Proofs.Walk.Coverage
import Ancestry.Proofs.Walk.Steadiness
import Ancestry.Proofs.Walk.Topological
import Ancestry.Store.Loose
import Ancestry.Store.Memory

/-!
# The life of a walk

A walk waits for its pass, gives out commits, and then its pass is over until it is reset.
While it waits it can be set, and a setting that fails leaves no trace; afterwards every
setting is refused. Whatever is done in between, what a pass gives are distinct commits, then
at most one fault, and then nothing. An order that needs all commits first gives no commit
where there is a fault.
-/

namespace Ancestry

/-- No commit is given twice where none was collected twice. -/
theorem Order.arranged_distinct (order : Order) {nodes : List Node}
    (distinct : (nodes.map Node.id).Nodup) : ((order.arranged nodes).map Node.id).Nodup := by
  have sorted : ((if order.topological then (Topological.sort nodes).1 else nodes).map
      Node.id).Nodup := by
    by_cases topological : order.topological = true
    · obtain ⟨stuck, same, _⟩ := Topological.sort_sorts distinct
      have whole := ((same.map Node.id).nodup_iff).mpr distinct
      rw [List.map_append] at whole
      simpa only [topological, if_true] using whole.of_append_left
    · simpa only [topological, if_false, Bool.false_eq_true] using distinct
  by_cases reversed : order.reversed = true
  · simp only [arranged, reversed, if_true, List.map_reverse]
    exact List.nodup_reverse.mpr sorted
  · simpa only [arranged, reversed, if_false, Bool.false_eq_true] using sorted

namespace Source

/-- The source never answers as a walk that has started does. -/
def Plain (source : Source) : Prop := ∀ id, source.read id ≠ .error .walkStarted

/-- Then no commit resolves to that answer. -/
theorem Plain.node {source : Source} (plain : source.Plain) (id : ObjectId) :
    source.node id ≠ .error .walkStarted := by
  intro started
  simp only [Source.node, header, readCommit, payloadOf] at started
  cases read : source.read id with
  | error fault =>
    simp only [read, Except.map] at started
    cases started
    exact plain id read
  | ok object =>
    by_cases same : object.kind = .commit
    · cases parsed : CommitHeader.parse object.payload <;>
        simp [read, same, parsed, Except.map, Except.mapError] at started
    · simp [read, same, Except.map] at started

/-- No stored bytes are refused for a walk that has started. -/
theorem ofStored_plain (id : ObjectId) (bytes : Bytes) :
    ofStored id bytes ≠ .error .walkStarted := by
  cases framed : Object.ofFrame bytes <;> simp [ofStored, framed, Except.mapError]

end Source

/-- Objects in memory are a plain source. -/
theorem MemoryStore.source_plain (store : MemoryStore) : store.source.Plain := by
  intro id
  cases kept : store.forms[id]? with
  | none => simp [source, read, kept]
  | some form => simpa [source, read, kept] using Source.ofStored_plain id form

/-- Objects in files are one too. -/
theorem LooseStore.source_plain (directory : Path) (files : FileSystem) :
    (source directory files).Plain := by
  intro id started
  unfold source at started
  dsimp only at started
  unfold LooseStore.read at started
  -- The file is forgotten first: deciding on what it holds would unpack it.
  generalize files.read (fileOf directory id) = answer at started
  rcases answer with fault | bytes
  · cases fault <;> cases started
  · dsimp only at started
    generalize Zlib.unpack? bytes = unpacked at started
    cases unpacked with
    | none => cases started
    | some form => exact Source.ofStored_plain id form started

/-- The reply to a setting of a walk that waits for its pass. -/
def Setting.reply (source : Source) : Setting → Reply
  | .mark told => .ofResult (fun _ => .done) (source.node told.id)
  | .filter _ | .order _ => .done

/-- A plain source makes no walk refuse a setting. -/
theorem Setting.reply_plain {source : Source} (plain : source.Plain) (setting : Setting) :
    setting.reply source ≠ .failed .walkStarted := by
  cases setting with
  | filter | order => simp [reply]
  | mark told =>
    cases resolved : source.node told.id with
    | ok node => simp [reply, resolved, Reply.ofResult]
    | error fault =>
      simp only [reply, resolved, Reply.ofResult]
      rintro ⟨⟩
      exact plain.node told.id resolved

namespace Event

/-- A commit was asked for since the last reset. -/
def Asked (events : List Event) : Prop := ∃ reply, (Operation.next, reply) ∈ pass events

/-- Then there is a reply to that. -/
theorem asked_iff (events : List Event) : Asked events ↔ answers (pass events) ≠ [] := by
  rw [Ne, answers, List.filterMap_eq_nil_iff]
  constructor
  · rintro ⟨reply, member⟩ nothing
    cases nothing _ member
  · intro something
    by_contra unasked
    apply something
    rintro ⟨operation, reply⟩ member
    cases operation with
    | next => exact absurd ⟨reply, member⟩ unasked
    | _ => rfl

/-- What happens after a reset belongs to its pass. -/
theorem pass_more {event : Event} (events : List Event) (going : event.1.isReset = false) :
    pass (events ++ [event]) = pass events ++ [event] :=
  List.rtakeWhile_concat_pos _ _ event (by simp [going])

/-- A request adds its reply. -/
theorem answers_next (events : List Event) (reply : Reply) :
    answers (pass (events ++ [(.next, reply)])) = answers (pass events) ++ [reply] := by
  rw [pass_more events rfl, answers, List.filterMap_append]
  rfl

/-- Other operations add none. -/
theorem answers_other {event : Event} (events : List Event) (going : event.1.isReset = false)
    (other : event.answer? = none) :
    answers (pass (events ++ [event])) = answers (pass events) := by
  rw [pass_more events going, answers, List.filterMap_append]
  simp [other, answers]

/-- With a reset a new pass begins. -/
theorem answers_reset (events : List Event) (reply : Reply) :
    answers (pass (events ++ [(.reset, reply)])) = [] := by
  rw [pass, List.rtakeWhile_concat_neg _ _ _ (by simp [Operation.isReset])]
  rfl

end Event

/-- The reply that gives a commit. -/
def Reply.given (node : Node) : Reply := .commit (some node)

/-- Replies of one pass: distinct commits, then at most one fault, then no more commits. Where
all commits are needed first, a fault is the first reply. -/
def PassReplies (order : Order) (replies : List Reply) : Prop :=
  ∃ (given : List Node) (fault : Option Fault) (nones : Nat),
    replies = given.map .given ++ fault.toList.map .failed ++ List.replicate nones (.commit none) ∧
    (given.map Node.id).Nodup ∧ (order.needsAll = true → fault.isSome = true → given = [])

namespace PassReplies

variable {order : Order} {replies : List Reply} {given : List Node}

/-- Commits that were given so far. -/
theorem of_given (order : Order) (distinct : (given.map Node.id).Nodup) :
    PassReplies order (given.map .given) := by
  refine ⟨given, none, 0, by simp, distinct, ?_⟩
  intro _ failed
  cases failed

/-- Commits and the end of the pass after them. -/
theorem ended (ending : Option Fault) (distinct : (given.map Node.id).Nodup)
    (whole : order.needsAll = true → ending.isSome = true → given = []) :
    PassReplies order
      (given.map .given ++ [.ofResult .commit (ending.elim (.ok none) .error)]) := by
  cases ending with
  | none => exact ⟨given, none, 1, by simp [Reply.ofResult], distinct, whole⟩
  | some fault => exact ⟨given, some fault, 0, by simp [Reply.ofResult], distinct, whole⟩

/-- After any of them there may be no more commits. -/
theorem more (passed : PassReplies order replies) :
    PassReplies order (replies ++ [.commit none]) := by
  obtain ⟨given, fault, nones, rfl, distinct, whole⟩ := passed
  refine ⟨given, fault, nones + 1, ?_, distinct, whole⟩
  rw [List.replicate_succ', List.append_assoc]

end PassReplies

namespace Walk

variable {source : Source} {walk other after : Walk} {graph kept : Graph}
  {roots hidden : List ObjectId} {given rest : List Node} {ending : Option Fault}
  {replies : List Reply}

section giving

/-- The commits that a walk has still to give in its pass, and how the pass ends then. A walk
by time finds them as it goes, any other has them kept. -/
inductive Owes (source : Source) (walk : Walk) : List Node → Option Fault → Prop where
  | byTime {roots hidden : List ObjectId} {given : List Node} {ending : Option Fault}
      (opened : walk.Open) (settled : walk.Settled source roots hidden)
      (yields : walk.Yields source given ending) : Owes source walk given ending
  | kept {given : List Node} (all : walk.order.needsAll = true) (phase : walk.phase = .running)
      (output : walk.output = some given) : Owes source walk given none

/-- Answers to a request: what is owed first, and else how the pass ends. -/
inductive Gives (source : Source) :
    List Node → Option Fault → Except Fault (Option Node) × Walk × Graph → Prop where
  | ended {ending : Option Fault} {after : Walk} {kept : Graph}
      (exhausted : after.phase = .exhausted) :
      Gives source [] ending (ending.elim (.ok none) .error, after, kept)
  | gave {node : Node} {rest : List Node} {ending : Option Fault} {after : Walk} {kept : Graph}
      (running : after.phase = .running) (owes : after.Owes source rest ending) :
      Gives source (node :: rest) ending (.ok (some node), after, kept)

/-- Kept commits are given one by one. -/
theorem gives_kept (all : walk.order.needsAll = true) (phase : walk.phase = .running)
    (output : walk.output = some given) : Gives source given none (next source walk graph) := by
  rw [next_kept given phase output]
  cases given with
  | nil => exact .ended rfl
  | cons node rest => exact .gave phase (.kept all phase rfl)

/-- What is owed is given. -/
theorem Owes.gives (owes : walk.Owes source given ending) (faithful : graph.Faithful source) :
    Gives source given ending (next source walk graph) := by
  cases owes with
  | kept all phase output => exact gives_kept all phase output
  | byTime opened settled yields =>
    obtain ⟨answer, asked, serves⟩ := next_serves opened settled faithful yields
    rw [asked]
    cases serves with
    | ended pass => exact .ended rfl
    | failed pass => exact .ended rfl
    | gave pass settled faithful yields =>
      exact .gave pass.phase (.byTime (opened.of_pass pass) settled yields)

/-- What is owed does not depend on marks that do not steer. -/
theorem Owes.congr (owes : walk.Owes source given ending) (same : SameState walk other)
    (pass : SamePass walk other) (filter : other.filter = walk.filter) :
    other.Owes source given ending := by
  cases owes with
  | kept all phase output =>
    exact .kept (pass.order ▸ all) (pass.phase.trans phase) (pass.output.trans output)
  | byTime opened settled yields =>
    obtain ⟨shown, last, course, selects⟩ := yields
    refine .byTime ?_ (settled.congr same) ⟨shown, last, course.congr same, filter ▸ selects⟩
    refine ⟨pass.order ▸ opened.order, pass.phase ▸ opened.phase, pass.output.trans opened.output⟩

/-- A walk that waits for its pass owes distinct commits, and where all are needed first none
of them if there is a fault. -/
theorem Marked.begins (marked : walk.Marked source roots hidden) (output : walk.output = none)
    (faithful : graph.Faithful source) :
    ∃ given ending, Gives source given ending (next source walk graph) ∧
      (given.map Node.id).Nodup ∧
      (walk.order.needsAll = true → ending.isSome = true → given = []) := by
  obtain ⟨shown, last, course⟩ := exists_course marked.consistent
  rcases selects : walk.filter.select source last shown with ⟨given, ending⟩
  have distinct := course.selects_distinct marked.consistent selects
  cases byTime : walk.order.needsAll with
  | false =>
    have opened : walk.Open := ⟨byTime, by simp [marked.phase], output⟩
    have owes : walk.Owes source given ending :=
      .byTime opened marked.settled ⟨shown, last, course, selects⟩
    refine ⟨given, ending, owes.gives faithful, distinct, ?_⟩
    intro all
    cases all
  | true =>
    rcases nextByTime_answering.gathers course marked byTime faithful selects with
      failed | collected
    · obtain ⟨fault, after, kept, rfl, ran, exhausted, _⟩ := failed
      refine ⟨[], some fault, ?_, List.nodup_nil, fun _ _ => rfl⟩
      rw [← requestBy_next, ran]
      exact .ended exhausted
    · obtain ⟨rfl, between, kept, gathers⟩ := collected
      refine ⟨walk.order.arranged given, none, ?_, walk.order.arranged_distinct distinct, ?_⟩
      · rw [← requestBy_next, gathers.first, requestBy_next]
        exact gives_kept (gathers.pass.order ▸ byTime) gathers.pass.phase rfl
      · intro _ failed
        cases failed

end giving

section stages

/-- What a pass has replied so far, and what the walk is then. -/
inductive Stage (source : Source) (walk : Walk) : List Reply → Prop where
  | waiting {roots hidden : List ObjectId} (marked : walk.Marked source roots hidden)
      (output : walk.output = none) : Stage source walk []
  | giving {given rest : List Node} {ending : Option Fault} (phase : walk.phase = .running)
      (begun : given ≠ []) (owes : walk.Owes source rest ending)
      (distinct : ((given ++ rest).map Node.id).Nodup)
      (whole : walk.order.needsAll = true → ending = none) : Stage source walk (given.map .given)
  | finished {replies : List Reply} (phase : walk.phase = .exhausted) (begun : replies ≠ [])
      (passed : PassReplies walk.order replies) : Stage source walk replies

/-- At every stage the replies are those of a pass. -/
theorem Stage.passes (stage : Stage source walk replies) : PassReplies walk.order replies := by
  cases stage with
  | waiting =>
    have nothing : (([] : List Node).map Node.id).Nodup := List.nodup_nil
    exact .of_given walk.order nothing
  | giving phase begun owes distinct whole =>
    rw [List.map_append] at distinct
    exact .of_given walk.order distinct.of_append_left
  | finished phase begun passed => exact passed

/-- A walk waits for its pass as long as no commit was asked for. -/
theorem Stage.waits_iff (stage : Stage source walk replies) :
    walk.phase = .configured ↔ replies = [] := by
  cases stage with
  | waiting marked => simp [marked.phase]
  | giving phase begun => simp [phase, begun]
  | finished phase begun => simp [phase, begun]

/-- A walk by time that is not over goes on by time, in whatever state that it settled in. -/
theorem Stage.opens (stage : Stage source walk replies) (byTime : walk.order.needsAll = false)
    (unfinished : walk.phase ≠ .exhausted) :
    walk.Open ∧ ∃ roots hidden, walk.Settled source roots hidden := by
  cases stage with
  | waiting marked output => exact ⟨⟨byTime, unfinished, output⟩, _, _, marked.settled⟩
  | finished phase => exact absurd phase unfinished
  | giving phase begun owes =>
    cases owes with
    | byTime opened settled => exact ⟨opened, _, _, settled⟩
    | kept all =>
      rw [byTime] at all
      cases all

/-- What is given or how the pass ends follows on what was given before. -/
theorem Gives.stage (before : List Node) {result : Except Fault (Option Node)}
    (gives : Gives source rest ending (result, after, kept))
    (distinct : ((before ++ rest).map Node.id).Nodup)
    (whole : after.order.needsAll = true → ending.isSome = true → before ++ rest = []) :
    Stage source after (before.map .given ++ [.ofResult .commit result]) := by
  cases gives with
  | ended exhausted =>
    rw [List.append_nil] at distinct whole
    exact .finished exhausted (by simp) (.ended ending distinct whole)
  | @gave node rest _ _ _ running owes =>
    have longer : before.map Reply.given ++ [.ofResult .commit (.ok (some node))] =
        (before ++ [node]).map .given := by
      rw [List.map_append]
      rfl
    rw [longer]
    refine .giving running (by simp) owes (by simpa using distinct) ?_
    -- Had all been needed first, a fault would have left no commit to give.
    intro all
    cases ending with
    | none => rfl
    | some fault =>
      have empty := whole all rfl
      simp at empty

/-- A request for a commit brings a walk to the next stage. -/
theorem Stage.next {result : Except Fault (Option Node)} (stage : Stage source walk replies)
    (faithful : graph.Faithful source) (ran : next source walk graph = (result, after, kept)) :
    Stage source after (replies ++ [.ofResult .commit result]) := by
  have steady : Steady source walk (Walk.next source walk) := next_steady walk
  -- The order of the pass is still the one with which it began.
  have order := (steady.found faithful ran).1.order
  cases stage with
  | waiting marked output =>
    obtain ⟨given, ending, gives, distinct, whole⟩ := marked.begins output faithful
    rw [ran] at gives
    rw [← order] at whole
    exact gives.stage [] distinct whole
  | giving phase begun owes distinct whole =>
    have gives := owes.gives faithful
    rw [ran] at gives
    rw [← order] at whole
    apply gives.stage _ distinct
    intro all failed
    rw [whole all] at failed
    cases failed
  | finished phase begun passed =>
    rw [next_exhausted phase] at ran
    cases ran
    exact .finished phase (by simp) passed.more

/-- Which commits are marked does not depend on marks that do not steer. -/
theorem Marked.congr (marked : walk.Marked source roots hidden) (same : SameState walk other)
    (pass : SamePass walk other) : other.Marked source roots hidden where
  consistent := marked.consistent.congr same
  phase := pass.phase.trans marked.phase
  unvisited id visited := marked.unvisited id ((same.visited id).mpr visited)
  discovered id := (same.discovered id).symm.trans (marked.discovered id)
  hidden id := (same.hidden id).symm.trans (marked.hidden id)

/-- Neither does the stage. -/
theorem Stage.congr (stage : Stage source walk replies) (same : SameState walk other)
    (pass : SamePass walk other) (filter : other.filter = walk.filter) :
    Stage source other replies := by
  cases stage with
  | waiting marked output =>
    exact .waiting (marked.congr same pass) (pass.output.trans output)
  | giving phase begun owes distinct whole =>
    refine .giving (pass.phase.trans phase) begun (owes.congr same pass filter) distinct ?_
    rw [pass.order]
    exact whole
  | finished phase begun passed =>
    refine .finished (pass.phase.trans phase) begun ?_
    rw [pass.order]
    exact passed

/-- Reading a message sets a mark that does not steer. -/
theorem body_stage {node : Node} {result : Except Fault String}
    (stage : Stage source walk replies)
    (ran : body source node walk graph = (result, after, kept)) :
    Stage source after replies := by
  rcases read : graph.message source node with ⟨fault | text, store⟩
  · simp only [body, read] at ran
    cases ran
    exact stage
  · simp only [body, read] at ran
    cases ran
    have same := mark_state walk node.id ({ · with bodyRead := true }) fun _ => ⟨rfl, rfl, rfl⟩
    exact stage.congr same ⟨rfl, rfl, rfl⟩ rfl

end stages

section settings

/-- A graph from which a commit cannot be resolved stays as it is. -/
theorem resolve_failed {id : ObjectId} {fault : Fault}
    (failed : graph.resolve source id = (.error fault, kept)) : kept = graph := by
  unfold Graph.resolve at failed
  split at failed
  · cases failed
  · split at failed
    · cases failed
      rfl
    · cases failed

/-- A mark whose commit does not resolve fails, and everything stays as it is. -/
theorem Marked.action_fails (mark : Mark) {fault : Fault}
    (marked : walk.Marked source roots hidden) (faithful : graph.Faithful source)
    (unresolved : source.node mark.id = .error fault) :
    mark.action source walk graph = (.error fault, walk, graph) := by
  obtain ⟨kept, answered, _⟩ := faithful.resolve mark.id
  rw [unresolved] at answered
  obtain rfl := resolve_failed answered
  cases mark <;>
    simp_all [Mark.action, Mark.id, markStart, hide, whenConfigured, marked.phase]

/-- What a setting does to a walk after the replies of its pass so far. -/
structure Sets (source : Source) (setting : Setting) (walk : Walk) (graph : Graph)
    (replies : List Reply) (reply : Reply) (after : Walk) (kept : Graph) : Prop where
  ran : perform source (.set setting) walk graph = (reply, after, kept)
  stage : Stage source after replies
  refused : replies ≠ [] → reply = .failed .walkStarted
  accepted : replies = [] → reply = setting.reply source
  undone : ∀ fault, reply = .failed fault → after = walk ∧ kept = graph

/-- A walk that has started refuses all settings. -/
theorem Stage.refuses (stage : Stage source walk replies) (begun : replies ≠ [])
    (setting : Setting) (graph : Graph) :
    Sets source setting walk graph replies (.failed .walkStarted) walk graph := by
  have started : ¬ walk.phase = .configured := fun waits => begun (stage.waits_iff.mp waits)
  refine ⟨?_, stage, fun _ => rfl, fun none => absurd none begun, fun _ _ => ⟨rfl, rfl⟩⟩
  cases setting with
  | filter | order =>
    simp only [perform, Setting.action, setFilter, setOrder, whenConfigured, started, if_false]
    rfl
  | mark told =>
    cases told <;>
      simp only [perform, Setting.action, Mark.action, markStart, hide, whenConfigured, started,
        if_false] <;> rfl

/-- A setting that is done. -/
theorem Sets.of_done {setting : Setting} (marked : after.Marked source roots hidden)
    (output : after.output = none)
    (ran : setting.action source walk graph = (.ok (), after, kept))
    (accepted : setting.reply source = .done) :
    Sets source setting walk graph [] .done after kept where
  ran := by
    simp only [perform, ran]
    rfl
  stage := .waiting marked output
  refused begun := absurd rfl begun
  accepted _ := accepted.symm
  undone _ failed := by cases failed

/-- A walk that waits for its pass takes a setting, unless it names a commit that does not
resolve. -/
theorem Marked.sets (marked : walk.Marked source roots hidden) (output : walk.output = none)
    (setting : Setting) (faithful : graph.Faithful source) :
    ∃ reply after kept, Sets source setting walk graph [] reply after kept := by
  cases setting with
  | filter filter =>
    have chosen : { walk with filter }.Marked source roots hidden :=
      marked.choose filter walk.order
    exact ⟨_, _, _, .of_done chosen output (if_pos marked.phase) rfl⟩
  | order order =>
    have chosen : { walk with order }.Marked source roots hidden :=
      marked.choose walk.filter order
    exact ⟨_, _, _, .of_done chosen output (if_pos marked.phase) rfl⟩
  | mark told =>
    cases resolved : source.node told.id with
    | ok node =>
      obtain ⟨after, kept, ran, _, tells⟩ := action_told told marked faithful
      rw [resolved] at ran
      have accepted : (Setting.mark told).reply source = .done := by
        simp only [Setting.reply, resolved]
        rfl
      exact ⟨_, _, _, .of_done (tells.marked marked) (tells.rest.output.trans output) ran accepted⟩
    | error fault =>
      have failed := marked.action_fails told faithful resolved
      refine ⟨.failed fault, walk, graph, ?_, .waiting marked output, ?_, ?_, ?_⟩
      · simp only [perform, Setting.action, failed]
        rfl
      · intro begun
        exact absurd rfl begun
      · intro _
        simp only [Setting.reply, resolved]
        rfl
      · intro _ _
        exact ⟨rfl, rfl⟩

/-- So it is at every stage. -/
theorem Stage.sets (stage : Stage source walk replies) (setting : Setting)
    (faithful : graph.Faithful source) :
    ∃ reply after kept, Sets source setting walk graph replies reply after kept := by
  by_cases waits : walk.phase = .configured
  · cases stage with
    | waiting marked output => exact marked.sets output setting faithful
    | giving phase | finished phase =>
      rw [phase] at waits
      cases waits
  · have begun : replies ≠ [] := fun none => waits (stage.waits_iff.mpr none)
    exact ⟨_, _, _, stage.refuses begun setting graph⟩

end settings

section histories

variable {events : List Event} {operation : Operation} {reply : Reply}

/-- Every operation brings a walk to the stage of its replies. -/
theorem Stage.perform (stage : Stage source walk (Event.answers (Event.pass events)))
    (faithful : graph.Faithful source)
    (ran : perform source operation walk graph = (reply, after, kept)) :
    Stage source after (Event.answers (Event.pass (events ++ [(operation, reply)]))) := by
  cases operation with
  | reset =>
    cases ran
    rw [Event.answers_reset]
    exact .waiting (marked_new source walk.filter.fresh walk.order) rfl
  | next =>
    rcases found : Walk.next source walk graph with ⟨result, between, store⟩
    simp only [Walk.perform, found] at ran
    cases ran
    rw [Event.answers_next]
    exact stage.next faithful found
  | set setting =>
    obtain ⟨_, _, _, sets⟩ := stage.sets setting faithful
    rw [sets.ran] at ran
    cases ran
    rw [Event.answers_other events rfl rfl]
    exact sets.stage
  | body node =>
    rcases read : body source node walk graph with ⟨result, between, store⟩
    simp only [Walk.perform, read] at ran
    cases ran
    rw [Event.answers_other events rfl rfl]
    exact body_stage stage read
  | marks | describe =>
    cases ran
    rw [Event.answers_other events rfl rfl]
    exact stage

/-- Whatever has happened, a walk is at the stage of the replies since its last reset. -/
theorem History.stage (history : History source events walk) :
    Stage source walk (Event.answers (Event.pass events)) := by
  induction history with
  | new => exact .waiting (marked_new source .everything {}) rfl
  | more history faithful ran inductionHypothesis => exact inductionHypothesis.perform faithful ran

/-- The life of a walk, whatever is done with it and in whatever sequence. Between two resets the
replies to requests are distinct commits, then at most one fault, and then none; and where all
commits are needed first, no commit comes before a fault. A setting is refused if and only if a
commit was asked for since the last reset. Before that it fails only if it names a commit that
does not resolve. Wherever it fails, the walk and the graph are what they were, and all that
follows is as if it had not been asked for.

Proof: every history puts a walk into a stage: before its first request it is marked, then it is
under way or over. The stage tells the replies so far and what a setting does. -/
theorem lifecycle (history : History source events walk) :
    PassReplies walk.order (Event.answers (Event.pass events)) ∧
    ∀ (setting : Setting) (graph : Graph), graph.Faithful source →
      ∃ reply after kept, perform source (.set setting) walk graph = (reply, after, kept) ∧
        (Event.Asked events → reply = .failed .walkStarted) ∧
        (¬ Event.Asked events → reply = setting.reply source) ∧
        (source.Plain → (reply = .failed .walkStarted ↔ Event.Asked events)) ∧
        ∀ fault, reply = .failed fault → after = walk ∧ kept = graph ∧
          ∀ later, session source (.set setting :: later) walk graph =
            (reply :: (session source later walk graph).1,
              (session source later walk graph).2) := by
  refine ⟨history.stage.passes, fun setting graph faithful => ?_⟩
  obtain ⟨reply, after, kept, sets⟩ := history.stage.sets setting faithful
  have refused : Event.Asked events → reply = .failed .walkStarted := fun asked =>
    sets.refused ((Event.asked_iff events).mp asked)
  have accepted : ¬ Event.Asked events → reply = setting.reply source := fun unasked =>
    sets.accepted (by simpa [Event.asked_iff] using unasked)
  refine ⟨reply, after, kept, sets.ran, refused, accepted, ?_, ?_⟩
  · intro plain
    refine ⟨fun started => ?_, refused⟩
    by_contra unasked
    exact setting.reply_plain plain ((accepted unasked).symm.trans started)
  · intro fault failed
    obtain ⟨rfl, rfl⟩ := sets.undone fault failed
    refine ⟨rfl, rfl, fun later => ?_⟩
    simp only [session, sets.ran]

/-- A walk over the fork has given two commits and then none, twice. It had failed to start from
a commit that is missing, and it has refused an order; it refuses every other setting, too, and
stays as it is. -/
theorem lifecycle_fork :
    ∃ walk, History fork
        [(.set (.mark (.start (.uniform 3))), .done),
          (.set (.mark (.start (.uniform 9))), .failed (.objectMissing (.uniform 9))),
          (.next, .commit (some ⟨.uniform 3, .zero, [.uniform 1], 3⟩)),
          (.next, .commit (some ⟨.uniform 1, .zero, [], 1⟩)), (.next, .commit none),
          (.set (.order { topological := true }), .failed .walkStarted), (.next, .commit none)]
        walk ∧
      PassReplies walk.order [.commit (some ⟨.uniform 3, .zero, [.uniform 1], 3⟩),
        .commit (some ⟨.uniform 1, .zero, [], 1⟩), .commit none, .commit none] ∧
      ∀ setting, perform fork (.set setting) walk {} = (.failed .walkStarted, walk, {}) := by
  have answered : (session fork [.set (.mark (.start (.uniform 3))),
      .set (.mark (.start (.uniform 9))), .next, .next, .next,
      .set (.order { topological := true }), .next] {} {}).1 =
      [.done, .failed (.objectMissing (.uniform 9)),
        .commit (some ⟨.uniform 3, .zero, [.uniform 1], 3⟩),
        .commit (some ⟨.uniform 1, .zero, [], 1⟩), .commit none, .failed .walkStarted,
        .commit none] := by
    decide +kernel
  obtain ⟨walk, _, _, history, _⟩ := exists_history answered
  obtain ⟨passed, sets⟩ := lifecycle history
  refine ⟨walk, history, passed, fun setting => ?_⟩
  obtain ⟨reply, after, kept, ran, refused, _, _, undone⟩ :=
    sets setting {} (Graph.faithful_empty fork)
  have failed := refused ⟨.commit none, by simp [Event.pass, List.rtakeWhile, Operation.isReset]⟩
  obtain ⟨rfl, rfl, _⟩ := undone .walkStarted failed
  rw [ran, failed]

end histories

end Walk

end Ancestry
