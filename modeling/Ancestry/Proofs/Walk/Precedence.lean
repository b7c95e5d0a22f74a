import Ancestry.Proofs.Commits.Bare
import Ancestry.Proofs.Walk.Collecting
import Ancestry.Proofs.Walk.Times
import Ancestry.Proofs.Walk.Topological

/-!
# Descendants first

In topological order a commit is given after each given commit that descends from it
through given commits. The order does not see a path that leaves the given commits: where
a filter excludes some of them, or the walk hides them, a commit may stand before another
one that descends from it. That cannot happen where times strictly fall, nor where all that
lies between given commits is given.
-/

namespace Ancestry

namespace Source

variable {source : Source} {roots ids : List ObjectId}

/-- No commit that the roots reach is a parent of itself over any number of steps. -/
def Acyclic (source : Source) (roots : List ObjectId) : Prop :=
  ∀ id, source.Reached roots id → ¬ Relation.TransGen source.Parent id id

/-- One commit descends from another. -/
def Descent (source : Source) : ObjectId → ObjectId → Prop := Relation.TransGen source.Parent

/-- One commit descends from another by steps to some commits only. -/
def DescentAmong (source : Source) (ids : List ObjectId) : ObjectId → ObjectId → Prop :=
  Relation.TransGen fun child parent => source.Parent child parent ∧ parent ∈ ids

/-- A descent among some commits is one among more. -/
theorem descent_mono {others : List ObjectId} (included : ∀ id ∈ ids, id ∈ others)
    {child parent : ObjectId} (descent : source.DescentAmong ids child parent) :
    source.DescentAmong others child parent := by
  induction descent with
  | single step => exact .single ⟨step.1, included _ step.2⟩
  | tail path step inductionHypothesis =>
    exact inductionHypothesis.tail ⟨step.1, included _ step.2⟩

/-- Where every step lowers some rank there are no cycles. -/
theorem acyclic_of_rank (rank : ObjectId → Nat)
    (falls : ∀ child parent, source.Reached roots child → source.Parent child parent →
      rank parent < rank child) : source.Acyclic roots := by
  intro id reached cycle
  have lower : ∀ other, source.Descent id other →
      source.Reached roots other ∧ rank other < rank id := by
    intro other descent
    induction descent with
    | single step => exact ⟨reached_step reached step, falls id _ reached step⟩
    | tail path step inductionHypothesis =>
      obtain ⟨led, below⟩ := inductionHypothesis
      exact ⟨reached_step led step, Nat.lt_trans (falls _ _ led step) below⟩
  exact Nat.lt_irrefl _ (lower id cycle).2

/-- Where times fall, a descendant is newer. -/
theorem Descends.newer (descends : source.Descends roots) {child parent : ObjectId}
    {node other : Node} (descent : source.Descent child parent)
    (reached : source.Reached roots child) (resolved : source.node child = .ok node)
    (resolves : source.node parent = .ok other) : other.time < node.time := by
  induction descent generalizing other with
  | single step => exact descends.older reached resolved ((parent_iff resolved).mp step) resolves
  | @tail middle parent path step inductionHypothesis =>
    obtain ⟨between, known, named⟩ := step
    have led : source.Reached roots middle := by
      obtain ⟨root, member, way⟩ := reached
      exact ⟨root, member, way.trans path.to_reflTransGen⟩
    exact Int.lt_trans (descends.older led known named resolves) (inductionHypothesis known)

end Source

namespace Topological

variable {source : Source} {roots : List ObjectId}

/-- In an ordered list a descent that starts in a later part stays there. -/
theorem descent_stays {before after : List Node} {child parent : ObjectId}
    (ordered : Ordered (before ++ after))
    (resolved : ∀ node ∈ after, source.node node.id = .ok node)
    (descent : source.DescentAmong ((before ++ after).map Node.id) child parent)
    (member : child ∈ after.map Node.id) : parent ∈ after.map Node.id := by
  have stays : ∀ child parent : ObjectId, child ∈ after.map Node.id →
      source.Parent child parent → parent ∈ (before ++ after).map Node.id →
      parent ∈ after.map Node.id := by
    intro child parent member step inside
    obtain ⟨node, known, rfl⟩ := List.mem_map.mp member
    obtain ⟨other, among, rfl⟩ := List.mem_map.mp inside
    rcases List.mem_append.mp among with first | last
    · have named := (Source.parent_iff (resolved node known)).mp step
      exact absurd named ((List.pairwise_append.mp ordered).2.2 other first node known)
    · exact List.mem_map_of_mem last
  induction descent with
  | single step => exact stays _ _ member step.1 step.2
  | tail path step inductionHypothesis => exact stays _ _ inductionHypothesis step.1 step.2

/-- In an ordered list no node stands before one that descends from it in the list. -/
theorem Ordered.descent {nodes : List Node} (ordered : Ordered nodes)
    (distinct : (nodes.map Node.id).Nodup)
    (resolved : ∀ node ∈ nodes, source.node node.id = .ok node) :
    nodes.Pairwise fun earlier later =>
      ¬ source.DescentAmong (nodes.map Node.id) later.id earlier.id := by
  have suffix : ∀ before after : List Node, nodes = before ++ after →
      after.Pairwise fun earlier later =>
        ¬ source.DescentAmong (nodes.map Node.id) later.id earlier.id := by
    intro before after same
    induction after generalizing before with
    | nil => exact List.Pairwise.nil
    | cons node rest inductionHypothesis =>
      have split : nodes = (before ++ [node]) ++ rest := by simp [same]
      refine List.pairwise_cons.mpr ⟨fun later member descent => ?_, inductionHypothesis _ split⟩
      rw [split] at ordered distinct resolved descent
      have inside := descent_stays ordered
        (fun other known => resolved other (List.mem_append_right _ known)) descent
        (List.mem_map_of_mem member)
      rw [List.map_append] at distinct
      exact (List.nodup_append.mp distinct).2.2 node.id (by simp) node.id inside rfl
  exact suffix [] nodes rfl

/-- In a history without cycles some of finitely many commits has no child among them. -/
theorem no_stuck {nodes : List Node} (acyclic : source.Acyclic roots)
    (known : ∀ node ∈ nodes, source.node node.id = .ok node ∧ source.Reached roots node.id)
    (stays : ∀ node ∈ nodes, ∃ child ∈ nodes, node.id ∈ child.parents) : nodes = [] := by
  let above : ObjectId → ObjectId → Prop := fun child parent =>
    source.Reached roots child ∧ source.Descent child parent
  have transitive : IsTrans ObjectId above :=
    ⟨fun _ _ _ first second => ⟨first.1, first.2.trans second.2⟩⟩
  have irreflexive : Std.Irrefl above := ⟨fun id both => acyclic id both.1 both.2⟩
  have founded : WellFounded above := Finite.wellFounded_of_trans_of_irrefl above
  by_contra some
  obtain ⟨first, member⟩ := List.exists_mem_of_ne_nil nodes some
  obtain ⟨id, inside, least⟩ :=
    founded.has_min {id | id ∈ nodes.map Node.id} ⟨first.id, List.mem_map_of_mem member⟩
  obtain ⟨node, among, rfl⟩ := List.mem_map.mp inside
  obtain ⟨child, childAmong, named⟩ := stays node among
  obtain ⟨resolved, reached⟩ := known child childAmong
  refine least child.id (List.mem_map_of_mem childAmong) ⟨reached, .single ?_⟩
  exact (Source.parent_iff resolved).mpr named

/-- In a history without cycles the sort loses no node and holds none back for ever. -/
theorem sort_whole {nodes : List Node} (acyclic : source.Acyclic roots)
    (distinct : (nodes.map Node.id).Nodup)
    (known : ∀ node ∈ nodes, source.node node.id = .ok node ∧ source.Reached roots node.id) :
    (sort nodes).1.Perm nodes ∧ Ordered (sort nodes).1 ∧ (sort nodes).2 = [] := by
  obtain ⟨stuck, same, ordered, stays, free⟩ := sort_sorts distinct
  have none : stuck = [] := no_stuck acyclic
    (fun node member => known node (same.mem_iff.mp (List.mem_append_right _ member))) stays
  refine ⟨?_, ordered, free none⟩
  rwa [none, List.append_nil] at same

/-- Then none of the nodes stands before one that descends from it among them. -/
theorem sort_precedes {nodes : List Node} (acyclic : source.Acyclic roots)
    (distinct : (nodes.map Node.id).Nodup)
    (known : ∀ node ∈ nodes, source.node node.id = .ok node ∧ source.Reached roots node.id) :
    (sort nodes).1.Perm nodes ∧
      (sort nodes).1.Pairwise fun earlier later =>
        ¬ source.DescentAmong (nodes.map Node.id) later.id earlier.id := by
  obtain ⟨same, ordered, _⟩ := sort_whole acyclic distinct known
  have precedes := ordered.descent ((same.map Node.id).nodup_iff.mpr distinct)
    fun node member => (known node (same.mem_iff.mp member)).1
  refine ⟨same, precedes.imp fun apart descent => apart ?_⟩
  exact Source.descent_mono (fun id => (same.map Node.id).mem_iff.mpr) descent

end Topological

namespace Walk

variable {source : Source} {walk : Walk} {graph : Graph} {roots hidden : List ObjectId}
  {shown given : List Node} {ending : Option Fault}

/-- Where times fall from the hidden commits on, nothing is shown that they reach. -/
theorem Course.free (course : Course source walk shown ending)
    (settled : walk.Settled source roots hidden) (included : ∀ root ∈ hidden, root ∈ roots)
    (descends : source.Descends hidden) : ∀ node ∈ shown, ¬ source.Reached hidden node.id := by
  refine course.each _ settled fun walk node rest settled first visible reached => ?_
  exact visible (settled.hidden_at_visit included descends first reached)

/-- A descent is one among some commits if these hold all that lies on it. -/
theorem descent_among {ids : List ObjectId} {child parent : ObjectId}
    (descent : source.Descent child parent)
    (holds : ∀ id, source.Descent child id → source.Reaches id parent → id ∈ ids) :
    source.DescentAmong ids child parent := by
  induction descent with
  | single step => exact .single ⟨step, holds _ (.single step) .refl⟩
  | tail path step inductionHypothesis =>
    refine .tail (inductionHypothesis fun id first last => ?_) ⟨step, ?_⟩
    · exact holds id first (last.tail step)
    · exact holds _ (path.tail step) .refl

/-- What lies between shown commits is shown, where times fall from the hidden commits
on. -/
theorem Course.between (course : Course source walk shown none)
    (marked : walk.Marked source roots hidden) (included : ∀ root ∈ hidden, root ∈ roots)
    (descends : source.Descends hidden) {earlier later : Node} (first : earlier ∈ shown)
    (last : later ∈ shown) (descent : source.Descent later.id earlier.id) :
    source.DescentAmong (shown.map Node.id) later.id earlier.id := by
  have settled := marked.settled
  obtain ⟨final, ends⟩ := course.ends rfl settled
  refine descent_among descent fun id above below => ?_
  obtain ⟨root, member, way⟩ := (course.reached settled later last).2
  refine ends.shows marked.unvisited ⟨root, member, way.trans above.to_reflTransGen⟩ ?_
  rintro ⟨veiled, inside, path⟩
  exact course.free settled included descends earlier first ⟨veiled, inside, path.trans below⟩

/-- Where times fall, nodes that come latest first come after their children, and none of them
comes before one that descends from it. -/
theorem follows_falls (descends : source.Descends roots)
    (known : ∀ node ∈ given, source.node node.id = .ok node ∧ source.Reached roots node.id)
    (falls : given.Pairwise fun earlier later => later.time ≤ earlier.time) :
    Topological.Follows given ∧
      given.Pairwise fun earlier later => ¬ source.Descent later.id earlier.id := by
  have newer : ∀ earlier ∈ given, ∀ later ∈ given, later.time ≤ earlier.time →
      ¬ source.Descent later.id earlier.id := by
    intro earlier first later last not_later descent
    have newer := descends.newer descent (known later last).2 (known later last).1
      (known earlier first).1
    omega
  refine ⟨?_, falls.imp_of_mem fun {earlier later} first last => newer earlier first later last⟩
  rintro before node after rfl child member named
  have inside : child ∈ before ++ node :: after := List.mem_append_right before member
  have behind := (List.pairwise_cons.mp (List.pairwise_append.mp falls).2.1).1
  refine newer node (by simp) child inside ?_
    (.single ((Source.parent_iff (known child inside).1).mpr named))
  rcases List.mem_cons.mp member with rfl | member
  · exact Int.le_refl _
  · exact behind child member

/-- A walk in topological order, whatever its filter, its starts and what it hides. In a
history without cycles its pass gives the commits of the walk by time. None of them comes
before one that descends from it through commits that are given. So none comes before any
that descends from it where everything that lies between is given, which is so where no
filter is chosen and times fall from the hidden commits on, and where times fall from all
marked commits on, whatever the filter is.

Proof: the pass arranges what the filter selects from the course. The sort puts children first among
these, which carries over to a descent all of whose commits are among them. In the last two cases
nothing between two of them is left out, or the times alone decide. -/
theorem topological_pass (settings : List Setting) (faithful : graph.Faithful source)
    (topological : Setting.orderOf settings = { topological := true })
    (acyclic : source.Acyclic (Setting.commits settings)) :
    ∃ given ending after kept,
      Pass source (configure source settings {} graph).1 (configure source settings {} graph).2
        given ending after kept ∧
      next source after kept = (.ok none, after, kept) ∧
      (given.map Node.id).Nodup ∧
      (ending = none → ∃ byTime last store,
        Pass source { (configure source settings {} graph).1 with order := {} }
          (configure source settings {} graph).2 byTime none last store ∧ given.Perm byTime) ∧
      given.Pairwise (fun earlier later =>
        ¬ source.DescentAmong (given.map Node.id) later.id earlier.id) ∧
      (Setting.filterOf settings = .everything ∧ source.Descends (Setting.hides settings) ∨
          source.Descends (Setting.commits settings) →
        given.Pairwise fun earlier later => ¬ source.Descent later.id earlier.id) := by
  obtain ⟨ready, stillFaithful⟩ := configure_new settings faithful
  have marked := ready.marked
  rw [List.nil_append, List.nil_append] at marked
  have settled := marked.settled
  obtain ⟨shown, ending, course⟩ := exists_course marked.consistent
  obtain ⟨after, kept, pass, exhausted⟩ := course.presents marked ready.output stillFaithful
  have order : (configure source settings {} graph).1.order = { topological := true } :=
    ready.order.trans topological
  have filter : (configure source settings {} graph).1.filter = Setting.filterOf settings :=
    ready.filter
  rw [order, filter] at pass
  have byTime : Course source { (configure source settings {} graph).1 with order := {} } shown
      ending :=
    course.congr (choice_state _ _ {})
  have wider : ∀ id, source.Reached (Mark.roots source (Setting.marks settings)) id →
      source.Reached (Setting.commits settings) id :=
    fun id => Source.reached_mono Mark.roots_marked
  have sublist : ((Setting.filterOf settings).select source ending shown).1.Sublist shown :=
    (Setting.filterOf settings).select_sublist shown
  rcases selects : (Setting.filterOf settings).select source ending shown with ⟨nodes, last⟩
  rw [selects] at pass sublist
  have distinct := (sublist.map Node.id).nodup (course.distinct settled.consistent)
  have known : ∀ node ∈ nodes, source.node node.id = .ok node ∧
      source.Reached (Setting.commits settings) node.id := by
    intro node member
    obtain ⟨resolved, reached⟩ := course.reached settled node (sublist.mem member)
    exact ⟨resolved, wider node.id reached⟩
  cases last with
  | some fault =>
    exact ⟨[], some fault, after, kept, pass, next_exhausted exhausted, List.nodup_nil, nofun,
      List.Pairwise.nil, fun _ => List.Pairwise.nil⟩
  | none =>
    obtain ⟨same, precedes⟩ := Topological.sort_precedes acyclic distinct known
    have sameIds := same.map Node.id
    refine ⟨(Topological.sort nodes).1, none, after, kept, pass, next_exhausted exhausted,
      sameIds.nodup_iff.mpr distinct, fun _ => ?_, ?_, ?_⟩
    · obtain ⟨final, store, whole, _⟩ := byTime.passes (marked.choose _ {}) rfl ready.output
        stillFaithful
      rw [filter, selects] at whole
      exact ⟨nodes, final, store, whole, same⟩
    · refine precedes.imp fun apart descent => apart ?_
      exact Source.descent_mono (fun id => sameIds.mem_iff.mp) descent
    · rintro (⟨everything, descends⟩ | descends)
      · rw [everything, Filter.select_everything] at selects
        obtain ⟨rfl, rfl⟩ := Prod.mk.inj selects
        refine precedes.imp_of_mem fun {earlier later} first last apart descent => apart ?_
        exact course.between marked Mark.veiled_roots (descends.mono Mark.veiled_hidden)
          (same.mem_iff.mp first) (same.mem_iff.mp last) descent
      · have recedes : source.Recedes (Mark.roots source (Setting.marks settings)) :=
          (descends.mono Mark.roots_marked).recedes
        have falls := (course.falls settled recedes).sublist sublist
        obtain ⟨follows, apart⟩ := follows_falls descends known falls
        rwa [Topological.sort_follows follows]

/-- Of the fork neither tip comes after its base. -/
theorem topological_pass_fork :
    ∃ given ending after kept,
      Pass fork
        (configure fork [.mark (.start (.uniform 2)), .order { topological := true },
          .mark (.start (.uniform 3))] {} {}).1
        (configure fork [.mark (.start (.uniform 2)), .order { topological := true },
          .mark (.start (.uniform 3))] {} {}).2 given ending after kept ∧
      given.Pairwise fun earlier later => ¬ fork.Descent later.id earlier.id := by
  have falls : fork.Descends [.uniform 2, .uniform 3] := fork_descends (by decide)
  have acyclic : fork.Acyclic [.uniform 2, .uniform 3] := by
    refine Source.acyclic_of_rank (fun id => if id = .uniform 1 then 0 else 1) ?_
    intro child parent reached step
    rcases reached_fork child (by decide) reached with tip | rfl
    · rcases List.mem_pair.mp tip with rfl | rfl
      · rw [List.mem_singleton.mp ((Source.parent_iff fork_left).mp step)]
        decide
      · rw [List.mem_singleton.mp ((Source.parent_iff fork_right).mp step)]
        decide
    · exact absurd ((Source.parent_iff fork_base).mp step) List.not_mem_nil
  obtain ⟨given, ending, after, kept, pass, _, _, _, _, first⟩ :=
    topological_pass [.mark (.start (.uniform 2)), .order { topological := true },
      .mark (.start (.uniform 3))] (Graph.faithful_empty fork) rfl acyclic
  exact ⟨given, ending, after, kept, pass, first (.inr falls)⟩

/-- Answers to enough requests that are commits only are a pass. -/
theorem Pass.of_answers (limit : Nat) (short : given.length < limit)
    (answered : (answers source limit walk graph).1.map Except.toOption = given.map some) :
    ∃ after kept, Pass source walk graph given none after kept := by
  induction limit generalizing walk graph given with
  | zero => simp at short
  | succ limit inductionHypothesis =>
    rcases ran : next source walk graph with ⟨fault | _ | node, between, store⟩
    · cases given <;> simp [answers, ran, Except.toOption] at answered
    · have nothing : given = [] := by
        simpa [answers, ran] using answered.symm
      subst nothing
      exact ⟨between, store, .ended ran⟩
    · cases given with
      | nil => simp [answers, ran] at answered
      | cons first rest =>
        simp only [answers, ran, List.map_cons, Except.toOption, List.cons.injEq,
          Option.some.injEq] at answered
        obtain ⟨rfl, others⟩ := answered
        obtain ⟨after, kept, pass⟩ :=
          inductionHypothesis (Nat.lt_of_succ_lt_succ short) others
        exact ⟨after, kept, .gave ran pass⟩

/-- A commit, a child of it that is newer, and a child of that one that is the oldest. -/
def pierced : Source :=
  .bare [(.uniform 1, [], 3), (.uniform 2, [.uniform 1], 10), (.uniform 3, [.uniform 2], 2)]

/-- Topological order from the first commit and the last, without the one between them. -/
def piercing : List Setting :=
  [.mark (.start (.uniform 1)), .mark (.start (.uniform 3)), .filter (.window (.before 5)),
    .order { topological := true }]

/-- The node of the first of the three commits. -/
theorem pierced_first : pierced.node (.uniform 1) = .ok ⟨.uniform 1, .zero, [], 3⟩ :=
  Source.bare_node (by decide) (by decide)

/-- The node of the commit between the others, the latest of them. -/
theorem pierced_between : pierced.node (.uniform 2) = .ok ⟨.uniform 2, .zero, [.uniform 1], 10⟩ :=
  Source.bare_node (by decide) (by decide)

/-- The node of the last of the three, the earliest of them. -/
theorem pierced_last : pierced.node (.uniform 3) = .ok ⟨.uniform 3, .zero, [.uniform 2], 2⟩ :=
  Source.bare_node (by decide) (by decide)

/-- The two starts reach nothing but the three commits in a row. -/
theorem pierced_step {child parent : ObjectId}
    (reached : pierced.Reached [.uniform 1, .uniform 3] child)
    (step : pierced.Parent child parent) :
    (child = .uniform 3 ∧ parent = .uniform 2) ∨ (child = .uniform 2 ∧ parent = .uniform 1) := by
  have next : ∀ child parent : ObjectId,
      child = .uniform 1 ∨ child = .uniform 2 ∨ child = .uniform 3 →
      pierced.Parent child parent →
      (child = .uniform 3 ∧ parent = .uniform 2) ∨ (child = .uniform 2 ∧ parent = .uniform 1) := by
    rintro child parent (rfl | rfl | rfl) step
    · exact absurd ((Source.parent_iff pierced_first).mp step) List.not_mem_nil
    · exact .inr ⟨rfl, List.mem_singleton.mp ((Source.parent_iff pierced_between).mp step)⟩
    · exact .inl ⟨rfl, List.mem_singleton.mp ((Source.parent_iff pierced_last).mp step)⟩
  refine next child parent ?_ step
  refine Source.reached_least
    (fun id => id = .uniform 1 ∨ id = .uniform 2 ∨ id = .uniform 3) ?_ ?_ reached
  · intro root member
    rcases List.mem_pair.mp member with rfl | rfl <;> simp
  · intro child parent known step
    rcases next child parent known step with ⟨_, rfl⟩ | ⟨_, rfl⟩ <;> simp

/-- The first commit is given before the last one, which descends from it, as the one between
them is excluded. -/
theorem pierced_misorders :
    Setting.orderOf piercing = { topological := true } ∧
      pierced.Acyclic (Setting.commits piercing) ∧
      ∃ earlier later after kept,
        Pass pierced (configure pierced piercing {} {}).1 (configure pierced piercing {} {}).2
          [earlier, later] none after kept ∧
        pierced.Descent later.id earlier.id := by
  refine ⟨rfl, ?_, ⟨.uniform 1, .zero, [], 3⟩, ⟨.uniform 3, .zero, [.uniform 2], 2⟩, ?_⟩
  · refine Source.acyclic_of_rank
      (fun id => if id = .uniform 3 then 2 else if id = .uniform 2 then 1 else 0) ?_
    intro child parent reached step
    rcases pierced_step reached step with ⟨rfl, rfl⟩ | ⟨rfl, rfl⟩ <;> decide
  · obtain ⟨after, kept, pass⟩ : ∃ after kept,
        Pass pierced (configure pierced piercing {} {}).1 (configure pierced piercing {} {}).2
          [⟨.uniform 1, .zero, [], 3⟩, ⟨.uniform 3, .zero, [.uniform 2], 2⟩] none after kept :=
      Pass.of_answers 3 (by decide) (by decide +kernel)
    have last : pierced.Parent (.uniform 3) (.uniform 2) :=
      (Source.parent_iff pierced_last).mpr List.mem_cons_self
    have first : pierced.Parent (.uniform 2) (.uniform 1) :=
      (Source.parent_iff pierced_between).mpr List.mem_cons_self
    exact ⟨after, kept, pass, .tail (.single last) first⟩

end Walk

end Ancestry
