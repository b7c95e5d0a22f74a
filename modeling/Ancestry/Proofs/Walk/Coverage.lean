import Ancestry.Proofs.Commits.Bare
import Ancestry.Proofs.Walk.Marking
import Ancestry.Proofs.Walk.Passes

/-!
# What a pass gives

A pass that includes everything gives each commit that the starts reach and the hidden
commits do not, and no commit twice, whatever the commit times are. A commit that is
reached from both may be given too: it is when it leaves the queue before it is known to
be hidden. Where times strictly fall along every path from the hidden commits this does
not happen. Without hidden commits a pass gives exactly what the starts reach, or ends
with the fault of a commit that they reach.
-/

namespace Ancestry.Walk

variable {source : Source} {graph : Graph} {walk : Walk} {node : Node} {rest shown : List Node}
  {ending : Option Fault} {roots hidden : List ObjectId}

/-- A walk by time between marks gives what its filter selects from its course. -/
theorem Course.passes (course : Course source walk shown ending)
    (marked : walk.Marked source roots hidden) (order : walk.order.needsAll = false)
    (output : walk.output = none) (faithful : graph.Faithful source) :
    ∃ after kept,
      Pass source walk graph (walk.filter.select source ending shown).1
        (walk.filter.select source ending shown).2 after kept ∧
      after.phase = .exhausted := by
  have opened : Open walk := ⟨order, by simp [marked.phase], output⟩
  exact exists_pass opened marked.settled faithful ⟨shown, ending, course, rfl⟩

/-- A new walk that was told where to start and what to hide comes to a course, and its
pass gives the whole of it. -/
theorem Tells.whole {marks : List Mark} (tells : Tells source marks {} walk)
    (faithful : graph.Faithful source) :
    ∃ shown ending after kept,
      Course source walk shown ending ∧ Pass source walk graph shown ending after kept ∧
      after.phase = .exhausted := by
  have marked := tells.started
  have unchanged := tells.rest
  obtain ⟨shown, ending, course⟩ := exists_course marked.consistent
  have byTime : walk.order.needsAll = false := by
    rw [unchanged.order]
    rfl
  obtain ⟨after, kept, pass, exhausted⟩ :=
    course.passes marked byTime unchanged.output faithful
  rw [unchanged.filter, Filter.select_everything] at pass
  exact ⟨shown, ending, after, kept, course, pass, exhausted⟩

/-- What a traversal from unvisited commits leaves out is hidden. -/
theorem Ends.shows {last : Walk} (ends : Ends source roots hidden walk shown last)
    (unvisited : ∀ id, ¬ walk.Visited id) {id : ObjectId} (reached : source.Reached roots id)
    (free : ¬ source.Reached hidden id) : id ∈ shown.map Node.id := by
  rcases ends.visited id (ends.covers reached free) with visited | veiled | member
  · exact absurd visited (unvisited id)
  · exact absurd (Source.reached_of_leads ((ends.exact.hidden id).mp veiled)) free
  · exact member

/-- What a traversal shows are commits of the source that the roots reach. -/
theorem Course.reached (course : Course source walk shown ending)
    (settled : walk.Settled source roots hidden) :
    ∀ node ∈ shown, source.node node.id = .ok node ∧ source.Reached roots node.id := by
  refine course.each _ settled fun walk node rest settled first _ => ?_
  refine ⟨settled.consistent.resolved node (by simp [first]), ?_⟩
  exact Source.reached_of_leads
    ((settled.exact.discovered node.id).mp (settled.consistent.waiting first).1)

/-- Where everything that the roots reach resolves, a traversal ends without a fault. -/
theorem Course.clean (course : Course source walk shown ending)
    (settled : walk.Settled source roots hidden)
    (resolved : ∀ id, source.Reached roots id → source.Resolves id) : ending = none := by
  refine Option.eq_none_iff_forall_not_mem.mpr fun fault failed => ?_
  obtain ⟨id, reached, unresolved⟩ := course.fault failed settled
  obtain ⟨node, resolves⟩ := resolved id reached
  rw [unresolved] at resolves
  cases resolves

/-- Without a root there is nothing to reach. -/
theorem not_reached_nil (id : ObjectId) : ¬ source.Reached [] id := by
  rintro ⟨root, member, _⟩
  exact List.not_mem_nil member

/-- Where all marked commits resolve, they are the roots. -/
theorem Tells.resolved {marks : List Mark} (tells : Tells source marks {} walk)
    (resolved : ∀ id ∈ marks.map Mark.id, source.Resolves id) :
    walk.Marked source (marks.map Mark.id) (marks.filterMap Mark.hidden) := by
  have marked := tells.started
  have all : ∀ mark ∈ marks, source.Resolves mark.id := fun mark member =>
    resolved mark.id (List.mem_map_of_mem member)
  rwa [Mark.roots, Mark.veiled, Mark.resolving_all all] at marked

/-- Starting somewhere and hiding nothing makes the starts the roots. -/
theorem Tells.plain {starts : List ObjectId} (tells : Tells source (starts.map .start) {} walk)
    (resolved : ∀ id ∈ starts, source.Resolves id) : walk.Marked source starts [] := by
  have ids : (starts.map Mark.start).map Mark.id = starts := by
    rw [List.map_map]
    exact List.map_id starts
  have veiled : (starts.map Mark.start).filterMap Mark.hidden = [] := by
    rw [List.filterMap_map]
    exact List.filterMap_eq_nil_iff.mpr fun _ _ => rfl
  have marked := tells.resolved (ids.symm ▸ resolved)
  rwa [ids, veiled] at marked

/-- Repeated requests of a walk without hidden commits, in any history. The pass is over
after finitely many of them. It has given commits that the starts reach, each once: all of
them if every commit that they reach resolves, and otherwise it fails on one that does
not.

Proof: the pass follows the course that the marks lead to. At the end of the course the visited
commits are closed under parents, so that they are all that the starts reach. -/
theorem plain_pass (starts : List ObjectId) (faithful : graph.Faithful source)
    (resolved : ∀ id ∈ starts, source.Resolves id) :
    ∃ given ending after kept,
      Pass source (markAll source (starts.map .start) {} graph).1
        (markAll source (starts.map .start) {} graph).2 given ending after kept ∧
      next source after kept = (.ok none, after, kept) ∧
      (∀ node ∈ given, source.node node.id = .ok node ∧ source.Reached starts node.id) ∧
      (given.map Node.id).Nodup ∧
      ((∀ id, source.Reached starts id → source.Resolves id) →
        ending = none ∧ ∀ id, source.Reached starts id → id ∈ given.map Node.id) ∧
      ((∃ id, source.Reached starts id ∧ ¬ source.Resolves id) →
        ∃ fault id, ending = some fault ∧ source.Reached starts id ∧
          source.node id = .error fault) := by
  obtain ⟨tells, stillFaithful⟩ :=
    markAll_tells (starts.map Mark.start) (marked_new source .everything {}) faithful
  obtain ⟨given, ending, after, kept, course, pass, exhausted⟩ := tells.whole stillFaithful
  have marked := tells.plain resolved
  have settled := marked.settled
  refine ⟨given, ending, after, kept, pass, next_exhausted exhausted, course.reached settled,
    course.distinct settled.consistent, fun all => ?_, ?_⟩
  · have clean := course.clean settled all
    obtain ⟨last, ends⟩ := course.ends clean settled
    exact ⟨clean, fun id reached => ends.shows marked.unvisited reached (not_reached_nil id)⟩
  · rintro ⟨id, reached, missing⟩
    cases ending with
    | none =>
      obtain ⟨last, ends⟩ := course.ends rfl settled
      have visited := ends.covers reached (not_reached_nil id)
      exact absurd (ends.consistent.entered id visited).2 missing
    | some fault =>
      obtain ⟨id, reached, unresolved⟩ := course.fault rfl settled
      exact ⟨fault, id, rfl, reached, unresolved⟩

/-- Two commits, each of which names the other as a parent, one of them twice. -/
def ring : Source :=
  .bare [(.uniform 1, [.uniform 2, .uniform 2], 5), (.uniform 2, [.uniform 1], 7)]

/-- The node of the first commit of the ring, which names its parent twice. -/
theorem ring_first :
    ring.node (.uniform 1) = .ok ⟨.uniform 1, .zero, [.uniform 2, .uniform 2], 5⟩ :=
  Source.bare_node (by decide) (by decide)

/-- The node of the second commit of the ring. -/
theorem ring_second : ring.node (.uniform 2) = .ok ⟨.uniform 2, .zero, [.uniform 1], 7⟩ :=
  Source.bare_node (by decide) (by decide)

/-- From either commit of the ring one comes to both. -/
theorem reached_ring (id : ObjectId) :
    ring.Reached [.uniform 1] id ↔ id = .uniform 1 ∨ id = .uniform 2 := by
  have start : ring.Reached [.uniform 1] (.uniform 1) := Source.reached_root List.mem_cons_self
  constructor
  · refine Source.reached_least (fun id => id = .uniform 1 ∨ id = .uniform 2)
      (fun root member => .inl (List.mem_singleton.mp member)) ?_
    rintro child parent (rfl | rfl) step
    · have named := (Source.parent_iff ring_first).mp step
      exact .inr (by simpa [Node.parents] using named)
    · have named := (Source.parent_iff ring_second).mp step
      exact .inl (List.mem_singleton.mp named)
  · rintro (rfl | rfl)
    · exact start
    · exact Source.reached_step start
        ((Source.parent_iff ring_first).mpr (by simp [Node.parents]))

/-- The pass from one commit of the ring gives both, and ends. -/
theorem plain_pass_ring :
    ∃ given after kept,
      Pass ring (markAll ring [.start (.uniform 1)] {} {}).1
        (markAll ring [.start (.uniform 1)] {} {}).2 given none after kept ∧
      (given.map Node.id).Nodup ∧
      .uniform 1 ∈ given.map Node.id ∧ .uniform 2 ∈ given.map Node.id := by
  obtain ⟨given, ending, after, kept, pass, _, _, distinct, whole, _⟩ :=
    plain_pass [.uniform 1] (Graph.faithful_empty ring) (by
      intro id member
      exact List.mem_singleton.mp member ▸ ⟨_, ring_first⟩)
  have resolved : ∀ id, ring.Reached [.uniform 1] id → ring.Resolves id := by
    intro id reached
    rcases (reached_ring id).mp reached with rfl | rfl
    · exact ⟨_, ring_first⟩
    · exact ⟨_, ring_second⟩
  obtain ⟨rfl, all⟩ := whole resolved
  exact ⟨given, after, kept, pass, distinct, all _ ((reached_ring _).mpr (.inl rfl)),
    all _ ((reached_ring _).mpr (.inr rfl))⟩

/-- The starts and the hidden commits together are what is marked. -/
theorem mem_marked (marks : List Mark) (id : ObjectId) :
    id ∈ marks.map Mark.id ↔
      id ∈ marks.filterMap Mark.started ∨ id ∈ marks.filterMap Mark.hidden := by
  induction marks with
  | nil => simp
  | cons mark rest inductionHypothesis =>
    cases mark <;>
      simp [Mark.id, Mark.started, Mark.hidden, inductionHypothesis, or_assoc, or_left_comm]

/-- A commit that is shown at its visit was led to from a start. -/
theorem Settled.reached_starts {starts : List ObjectId} (settled : walk.Settled source roots hidden)
    (either : ∀ root ∈ roots, root ∈ starts ∨ root ∈ hidden)
    (first : walk.pending = node :: rest) (visible : ¬ walk.Hidden node.id) :
    source.Reached starts node.id := by
  obtain ⟨root, member, path⟩ :=
    (settled.exact.discovered node.id).mp (settled.consistent.waiting first).1
  rcases either root member with started | veiled
  · exact Source.reached_of_leads ⟨root, started, path⟩
  · exact absurd ((settled.exact.hidden node.id).mpr ⟨root, veiled, path⟩) visible

/-- A commit waits in the queue that is newer than the given one. -/
def AwaitsNewer (source : Source) (walk : Walk) (id : ObjectId) : Prop :=
  ∃ waiting ∈ walk.pending, ∀ node, source.node id = .ok node → node.time < waiting.time

/-- A commit that the hidden ones reach is led to through visited commits, or a newer one
waits, if times fall along the way: where the path leaves the visited commits one of its
commits waits, and all that follow are older. -/
theorem Settled.led_or_newer (settled : walk.Settled source roots hidden)
    (included : ∀ root ∈ hidden, root ∈ roots) (descends : source.Descends hidden) {id : ObjectId}
    (reached : source.Reached hidden id) :
    source.Leads walk.Visited hidden id ∨ walk.AwaitsNewer source id := by
  have both : source.Reached hidden id ∧
      (source.Leads walk.Visited hidden id ∨ walk.AwaitsNewer source id) := by
    refine Source.reached_least (fun id => source.Reached hidden id ∧
      (source.Leads walk.Visited hidden id ∨ walk.AwaitsNewer source id)) ?_ ?_ reached
    · intro root member
      exact ⟨Source.reached_root member, .inl (Source.leads_root member)⟩
    · rintro child parent ⟨reached, either⟩ ⟨node, resolved, member⟩
      have older : ∀ other, source.node parent = .ok other → other.time < node.time :=
        fun other => descends.older reached resolved member
      refine ⟨Source.reached_step reached ⟨node, resolved, member⟩, ?_⟩
      rcases either with led | ⟨waiting, inside, newer⟩
      · by_cases visited : walk.Visited child
        · exact .inl (Source.leads_step led visited ⟨node, resolved, member⟩)
        · have discovered := (settled.exact.discovered child).mpr
            (Source.leads_mono (fun _ passed => passed) included led)
          obtain ⟨waiting, inside, same⟩ :=
            List.mem_map.mp ((settled.consistent.queued child).mpr ⟨discovered, visited⟩)
          have resolvedWaiting := settled.consistent.resolved waiting inside
          rw [same, resolved] at resolvedWaiting
          obtain rfl := Except.ok.inj resolvedWaiting
          exact .inr ⟨node, inside, older⟩
      · refine .inr ⟨waiting, inside, fun other resolves => ?_⟩
        exact Int.lt_trans (older other resolves) (newer node resolved)
  exact both.2

/-- Where times fall, a commit is hidden at its visit if the hidden commits reach it: on
the way to it everything is newer and has left the queue before. -/
theorem Settled.hidden_at_visit (settled : walk.Settled source roots hidden)
    (included : ∀ root ∈ hidden, root ∈ roots) (descends : source.Descends hidden)
    (first : walk.pending = node :: rest) (reached : source.Reached hidden node.id) :
    walk.Hidden node.id := by
  rcases settled.led_or_newer included descends reached with led | ⟨waiting, member, newer⟩
  · exact (settled.exact.hidden node.id).mpr led
  · have older := newer node (settled.consistent.resolved node (by simp [first]))
    have sorted := settled.consistent.sorted
    rw [first] at sorted member
    rcases List.mem_cons.mp member with rfl | member
    · exact absurd older (Int.lt_irrefl _)
    · exact absurd ((List.pairwise_cons.mp sorted).1 waiting member) (Int.not_le.mpr older)

/-- What is given of a history of which some part is hidden. No commit that only the starts
reach is lost, and where times fall from the hidden commits on there is nothing else. -/
structure Excludes (source : Source) (starts hidden : List ObjectId) (given : List Node) :
    Prop where
  distinct : (given.map Node.id).Nodup
  started : ∀ node ∈ given, source.Reached starts node.id
  complete : ∀ id, source.Reached starts id → ¬ source.Reached hidden id → id ∈ given.map Node.id
  falling : source.Descends hidden → ∀ node ∈ given, ¬ source.Reached hidden node.id

/-- A traversal without a fault excludes what its marks hide. -/
theorem Tells.excludes {marks : List Mark} (tells : Tells source marks {} walk)
    (resolved : ∀ id, source.Reached (marks.map Mark.id) id → source.Resolves id)
    (course : Course source walk shown none) :
    Excludes source (marks.filterMap Mark.started) (marks.filterMap Mark.hidden) shown := by
  have marked := tells.resolved fun id member => resolved id (Source.reached_root member)
  have settled := marked.settled
  obtain ⟨last, ends⟩ := course.ends rfl settled
  refine ⟨course.distinct settled.consistent, ?_, ?_, fun descends => ?_⟩
  · refine course.each _ settled fun walk node rest settled first visible => ?_
    exact settled.reached_starts (fun root => (mem_marked marks root).mp) first visible
  · intro id ⟨root, member, path⟩ free
    exact ends.shows marked.unvisited ⟨root, (mem_marked marks root).mpr (.inl member), path⟩ free
  · refine course.each _ settled fun walk node rest settled first visible veiled => visible ?_
    have included : ∀ root ∈ marks.filterMap Mark.hidden, root ∈ marks.map Mark.id :=
      fun root inside => (mem_marked marks root).mpr (.inr inside)
    exact settled.hidden_at_visit included descends first veiled

/-- Where times fall from the hidden commits on, exactly what only the starts reach is
given. -/
theorem Excludes.exact {starts : List ObjectId} {given : List Node}
    (excludes : Excludes source starts hidden given) (descends : source.Descends hidden)
    (id : ObjectId) :
    id ∈ given.map Node.id ↔ source.Reached starts id ∧ ¬ source.Reached hidden id := by
  refine ⟨fun member => ?_, fun both => excludes.complete id both.1 both.2⟩
  obtain ⟨node, inside, rfl⟩ := List.mem_map.mp member
  exact ⟨excludes.started node inside, excludes.falling descends node inside⟩

/-- Repeated requests of a walk that was told where to start and what to hide, in any
order. They give only what the starts reach, nothing twice, and lose no commit that only
the starts reach, whatever the times are. Where times fall from the hidden commits on they
give nothing else.

Proof: what the course leaves out is hidden at its end, and what is hidden is reached from a hidden
mark. Where times fall a hidden commit is marked before it is its turn. -/
theorem hiding_pass (marks : List Mark) (faithful : graph.Faithful source)
    (resolved : ∀ id, source.Reached (marks.map Mark.id) id → source.Resolves id) :
    ∃ given after kept,
      Pass source (markAll source marks {} graph).1 (markAll source marks {} graph).2 given none
        after kept ∧
      next source after kept = (.ok none, after, kept) ∧
      (given.map Node.id).Nodup ∧
      (∀ node ∈ given, source.Reached (marks.filterMap Mark.started) node.id) ∧
      (∀ id, source.Reached (marks.filterMap Mark.started) id →
        ¬ source.Reached (marks.filterMap Mark.hidden) id → id ∈ given.map Node.id) ∧
      (source.Descends (marks.filterMap Mark.hidden) →
        ∀ id, id ∈ given.map Node.id ↔
          source.Reached (marks.filterMap Mark.started) id ∧
            ¬ source.Reached (marks.filterMap Mark.hidden) id) := by
  obtain ⟨tells, stillFaithful⟩ :=
    markAll_tells marks (marked_new source .everything {}) faithful
  obtain ⟨given, ending, after, kept, course, pass, exhausted⟩ := tells.whole stillFaithful
  have marked := tells.resolved fun id member => resolved id (Source.reached_root member)
  obtain rfl := course.clean marked.settled resolved
  have excludes := tells.excludes resolved course
  exact ⟨given, after, kept, pass, next_exhausted exhausted, excludes.distinct, excludes.started,
    excludes.complete, excludes.exact⟩

/-- Two commits with one parent, each newer than it. -/
def fork : Source :=
  .bare [(.uniform 1, [], 1), (.uniform 2, [.uniform 1], 2), (.uniform 3, [.uniform 1], 3)]

/-- The node of the commit that both sides of the fork come from. -/
theorem fork_base : fork.node (.uniform 1) = .ok ⟨.uniform 1, .zero, [], 1⟩ :=
  Source.bare_node (by decide) (by decide)

/-- The node of the left side. -/
theorem fork_left : fork.node (.uniform 2) = .ok ⟨.uniform 2, .zero, [.uniform 1], 2⟩ :=
  Source.bare_node (by decide) (by decide)

/-- The node of the right side. -/
theorem fork_right : fork.node (.uniform 3) = .ok ⟨.uniform 3, .zero, [.uniform 1], 3⟩ :=
  Source.bare_node (by decide) (by decide)

/-- A tip of the fork reaches nothing but itself and the base. -/
theorem reached_fork {tips : List ObjectId} (id : ObjectId)
    (either : ∀ tip ∈ tips, tip = .uniform 2 ∨ tip = .uniform 3)
    (reached : fork.Reached tips id) : id ∈ tips ∨ id = .uniform 1 := by
  refine Source.reached_least (fun id => id ∈ tips ∨ id = .uniform 1)
    (fun root member => .inl member) ?_ reached
  intro child parent known step
  have based : child = .uniform 1 ∨ child = .uniform 2 ∨ child = .uniform 3 :=
    known.elim (fun member => .inr (either child member)) .inl
  rcases based with rfl | rfl | rfl
  · exact absurd ((Source.parent_iff fork_base).mp step) List.not_mem_nil
  · exact .inr (List.mem_singleton.mp ((Source.parent_iff fork_left).mp step))
  · exact .inr (List.mem_singleton.mp ((Source.parent_iff fork_right).mp step))

/-- Every commit that the sides of the fork reach can be resolved. -/
theorem fork_resolves {tips : List ObjectId}
    (either : ∀ tip ∈ tips, tip = .uniform 2 ∨ tip = .uniform 3) :
    ∀ id, fork.Reached tips id → fork.Resolves id := by
  intro id reached
  rcases reached_fork id either reached with tip | rfl
  · rcases either id tip with rfl | rfl
    · exact ⟨_, fork_left⟩
    · exact ⟨_, fork_right⟩
  · exact ⟨_, fork_base⟩

/-- Along the fork times fall. -/
theorem fork_descends {tips : List ObjectId}
    (either : ∀ tip ∈ tips, tip = .uniform 2 ∨ tip = .uniform 3) : fork.Descends tips := by
  intro child parent reached resolves resolvesParent member
  have based : child.id = .uniform 1 ∨ child.id = .uniform 2 ∨ child.id = .uniform 3 :=
    (reached_fork child.id either reached).elim (fun tip => .inr (either _ tip)) .inl
  rcases based with based | based | based
  all_goals
    rw [based] at resolves
    simp only [fork_base, fork_left, fork_right, Except.ok.injEq] at resolves
    subst resolves
  · exact absurd member List.not_mem_nil
  all_goals
    rw [List.mem_singleton.mp member, fork_base] at resolvesParent
    obtain rfl := Except.ok.inj resolvesParent
    decide

/-- Hiding one tip of the fork and starting from the other gives just the other. -/
theorem hiding_pass_fork :
    ∃ given after kept,
      Pass fork (markAll fork [.hide (.uniform 2), .start (.uniform 3)] {} {}).1
        (markAll fork [.hide (.uniform 2), .start (.uniform 3)] {} {}).2 given none after kept ∧
      ∀ id, id ∈ given.map Node.id ↔ id = .uniform 3 := by
  have resolved : ∀ id, fork.Reached [.uniform 2, .uniform 3] id → fork.Resolves id := by
    intro id reached
    rcases reached_fork id (by simp) reached with tip | rfl
    · rcases List.mem_pair.mp tip with rfl | rfl
      · exact ⟨_, fork_left⟩
      · exact ⟨_, fork_right⟩
    · exact ⟨_, fork_base⟩
  have descends : fork.Descends [.uniform 2] := by
    intro child parent reached resolves resolvesParent member
    rcases reached_fork child.id (by simp) reached with tip | base
    · rw [List.mem_singleton.mp tip, fork_left] at resolves
      obtain rfl := Except.ok.inj resolves
      rw [List.mem_singleton.mp member, fork_base] at resolvesParent
      obtain rfl := Except.ok.inj resolvesParent
      decide
    · rw [base, fork_base] at resolves
      obtain rfl := Except.ok.inj resolves
      exact absurd member List.not_mem_nil
  obtain ⟨given, after, kept, pass, _, _, _, _, exactly⟩ :=
    hiding_pass [.hide (.uniform 2), .start (.uniform 3)] (Graph.faithful_empty fork) resolved
  refine ⟨given, after, kept, pass, fun id => (exactly descends id).trans ⟨?_, ?_⟩⟩
  · rintro ⟨reached, free⟩
    rcases reached_fork id (by simp [Mark.started]) reached with tip | rfl
    · exact List.mem_singleton.mp tip
    · refine absurd (Source.reached_step (Source.reached_root List.mem_cons_self) ?_) free
      exact (Source.parent_iff fork_left).mpr List.mem_cons_self
  · rintro rfl
    refine ⟨Source.reached_root List.mem_cons_self, fun reached => ?_⟩
    rcases reached_fork _ (by simp [Mark.hidden]) reached with tip | base
    · exact absurd (List.mem_singleton.mp tip) (by decide)
    · exact absurd base (by decide)

end Ancestry.Walk
