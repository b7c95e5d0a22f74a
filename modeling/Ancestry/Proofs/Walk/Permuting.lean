import Ancestry.Proofs.Walk.Resemblance

/-!
# Marking in another sequence

Commits of one time leave the queue in the sequence in which they were marked. Where no two of
the marked commits have one time, the sequence of the marks leaves no trace: the queue is the
only one that is in order and holds the marked commits, and every mark is set or not whatever
was marked before. So two walks with the same marks in different sequences look alike when
their passes start.
-/

namespace Ancestry

namespace Source

variable {source : Source} {ids others : List ObjectId}

/-- No two of some commits have one time, as far as they resolve. -/
def Staggered (source : Source) (ids : List ObjectId) : Prop :=
  ∀ node other : Node, source.node node.id = .ok node → source.node other.id = .ok other →
    node.id ∈ ids → other.id ∈ ids → node.time = other.time → node = other

/-- Of staggered commits fewer are staggered too. -/
theorem Staggered.mono (staggered : source.Staggered others)
    (included : ∀ id ∈ ids, id ∈ others) : source.Staggered ids :=
  fun node other resolved resolves first second =>
    staggered node other resolved resolves (included _ first) (included _ second)

end Source

namespace Mark

variable {source : Source} {marks others : List Mark}

/-- The roots do not depend on the sequence of the marks. -/
theorem roots_perm (same : marks.Perm others) (id : ObjectId) :
    id ∈ roots source marks ↔ id ∈ roots source others :=
  ((same.filter _).map Mark.id).mem_iff

/-- What marks hide does not depend on their order. -/
theorem veiled_perm (same : marks.Perm others) (id : ObjectId) :
    id ∈ veiled source marks ↔ id ∈ veiled source others :=
  ((same.filter _).filterMap Mark.hidden).mem_iff

end Mark

namespace Walk

variable {source : Source} {walk left right : Walk} {graph store : Graph}
  {roots hidden others veiled : List ObjectId}

/-- The marks that only a pass sets are unset. -/
def Unused (walk : Walk) : Prop :=
  ∀ id, (walk.marksOf id).emitted = false ∧ (walk.marksOf id).bodyRead = false ∧
    (walk.marksOf id).delayed = false

/-- A new walk is unused. -/
theorem unused_new (filter : Filter) (order : Order) : Unused { filter, order } := by
  intro id
  simp [marksOf]

/-- They stay unset while other marks are set. -/
theorem Unused.rest (unused : left.Unused) (rest : KeepsRest left right) : right.Unused := by
  intro id
  rw [rest.emitted, rest.bodyRead, rest.delayed]
  exact unused id

/-- Settings do not set them. -/
theorem configure_unused (settings : List Setting) (marked : walk.Marked source roots hidden)
    (unused : walk.Unused) (faithful : graph.Faithful source) :
    (configure source settings walk graph).1.Unused := by
  induction settings generalizing walk graph roots hidden with
  | nil => exact unused
  | cons setting rest inductionHypothesis =>
    cases setting with
    | mark mark =>
      obtain ⟨after, kept, ran, stillFaithful, told⟩ := action_told mark marked faithful
      simp only [configure, Setting.action, ran]
      exact inductionHypothesis (told.marked marked) (unused.rest told.rest) stillFaithful
    | filter filter =>
      have ran : setFilter filter walk graph = (.ok (), { walk with filter }, graph) :=
        if_pos marked.phase
      simp only [configure, Setting.action, ran]
      exact inductionHypothesis (marked.choose filter walk.order) unused faithful
    | order order =>
      have ran : setOrder order walk graph = (.ok (), { walk with order }, graph) :=
        if_pos marked.phase
      simp only [configure, Setting.action, ran]
      exact inductionHypothesis (marked.choose walk.filter order) unused faithful

/-- Before a pass the roots and the hidden commits say all about the marks. -/
theorem Marked.marksOf_eq (marked : walk.Marked source roots hidden) (unused : walk.Unused)
    (id : ObjectId) :
    walk.marksOf id =
      { discovered := decide (id ∈ roots), uninteresting := decide (id ∈ hidden) } := by
  have discovered : (walk.marksOf id).discovered = decide (id ∈ roots) :=
    Bool.eq_iff_iff.mpr ((marked.discovered id).trans decide_eq_true_iff.symm)
  have visited : (walk.marksOf id).headerRead = false := Bool.not_eq_true _ ▸ marked.unvisited id
  have veiled : (walk.marksOf id).uninteresting = decide (id ∈ hidden) :=
    Bool.eq_iff_iff.mpr ((marked.hidden id).trans decide_eq_true_iff.symm)
  obtain ⟨emitted, read, delayed⟩ := unused id
  rw [← discovered, ← veiled]
  generalize walk.marksOf id = marks at *
  cases marks
  simp_all

/-- Before a pass the queue holds the roots. -/
theorem Marked.mem_pending (marked : walk.Marked source roots hidden) (node : Node) :
    node ∈ walk.pending ↔ node.id ∈ roots ∧ source.node node.id = .ok node := by
  constructor
  · intro member
    have waits := (marked.consistent.queued node.id).mp (List.mem_map_of_mem member)
    exact ⟨(marked.discovered node.id).mp waits.1, marked.consistent.resolved node member⟩
  · rintro ⟨root, resolved⟩
    obtain ⟨other, member, same⟩ := List.mem_map.mp ((marked.consistent.queued node.id).mpr
      ⟨(marked.discovered node.id).mpr root, marked.unvisited node.id⟩)
    have resolves := marked.consistent.resolved other member
    rw [same, resolved] at resolves
    exact Except.ok.inj resolves ▸ member

/-- Where the roots differ in time there is only one queue of them. -/
theorem Marked.pending_eq (first : left.Marked source roots hidden)
    (second : right.Marked source others veiled) (same : ∀ id, id ∈ roots ↔ id ∈ others)
    (staggered : source.Staggered roots) : left.pending = right.pending := by
  have perm : left.pending.Perm right.pending := by
    refine (List.perm_ext_iff_of_nodup (.of_map _ first.consistent.distinct)
      (.of_map _ second.consistent.distinct)).mpr fun node => ?_
    rw [first.mem_pending, second.mem_pending, same]
  refine perm.eq_of_pairwise (fun node other here there early late => ?_)
    first.consistent.sorted second.consistent.sorted
  obtain ⟨root, resolved⟩ := (first.mem_pending node).mp here
  obtain ⟨marked, resolves⟩ := (first.mem_pending other).mp (perm.mem_iff.mpr there)
  exact staggered node other resolved resolves root marked (Int.le_antisymm late early)

/-- Walks with the same roots and the same hidden commits look alike before their passes, where
the roots differ in time. -/
theorem Marked.twins (first : left.Marked source roots hidden)
    (second : right.Marked source others veiled) (unused : left.Unused) (unusedToo : right.Unused)
    (sameRoots : ∀ id, id ∈ roots ↔ id ∈ others) (sameHidden : ∀ id, id ∈ hidden ↔ id ∈ veiled)
    (staggered : source.Staggered roots) (filter : left.filter = right.filter)
    (order : left.order = right.order) (output : left.output = right.output) :
    Twins left right := by
  have marks : ∀ id, left.marksOf id = right.marksOf id := by
    intro id
    rw [first.marksOf_eq unused, second.marksOf_eq unusedToo]
    simp only [sameRoots, sameHidden]
  have pending := first.pending_eq second sameRoots staggered
  have shows : left.shows = right.shows := by
    funext node
    simp only [Walk.shows, marks]
  have interesting : left.interesting = right.interesting := by
    rw [first.consistent.counted, second.consistent.counted, pending, shows]
  exact ⟨_, filter, order, first.phase.trans second.phase.symm, marks, pending, interesting,
    output, fun _ => rfl⟩

/-- A walk with settings against one with the same marks in another sequence, the same filter and
the same order, over any two graphs. Marks may be repeated, and starts and hidden commits may be
mixed. Where no two of the marked commits have one time, and so where no two that they reach
have one, both passes give the same commits in the same sequence, end alike, and leave the same
marks on every commit.

Proof: marking queues and hides the same commits in either sequence, and without equal times there
is one order of the queue. The walks look alike then, and no request can tell such walks apart. -/
theorem marks_commute (settings others : List Setting) (faithful : graph.Faithful source)
    (other : store.Faithful source)
    (marks : (Setting.marks settings).Perm (Setting.marks others))
    (filter : Setting.filterOf settings = Setting.filterOf others)
    (order : Setting.orderOf settings = Setting.orderOf others)
    (staggered : source.Staggered (Setting.commits settings)) :
    ∃ given ending after kept twin last,
      Pass source (configure source settings {} graph).1 (configure source settings {} graph).2
        given ending after kept ∧
      Pass source (configure source others {} store).1 (configure source others {} store).2
        given ending twin last ∧
      ∀ id, after.marksOf id = twin.marksOf id := by
  obtain ⟨ready, stillFaithful⟩ := configure_new settings faithful
  obtain ⟨readyToo, otherFaithful⟩ := configure_new others other
  have marked := ready.marked
  have markedToo := readyToo.marked
  rw [List.nil_append, List.nil_append] at marked markedToo
  have fresh := unused_new .everything {}
  have twins : Twins (configure source settings {} graph).1 (configure source others {} store).1 :=
    marked.twins markedToo
      (configure_unused settings (marked_new source .everything {}) fresh faithful)
      (configure_unused others (marked_new source .everything {}) fresh other)
      (Mark.roots_perm marks) (Mark.veiled_perm marks) (staggered.mono Mark.roots_marked)
      (ready.filter.trans (filter.trans readyToo.filter.symm))
      (ready.order.trans (order.trans readyToo.order.symm))
      (ready.output.trans readyToo.output.symm)
  obtain ⟨shown, ending, course⟩ := exists_course marked.consistent
  obtain ⟨after, kept, pass, _⟩ := course.presents marked ready.output stillFaithful
  obtain ⟨twin, last, again, held, alike⟩ := pass.twin twins stillFaithful otherFaithful
  exact ⟨_, _, after, kept, twin, last, pass, again, alike.marks⟩

/-- The tips of the fork differ in time. -/
theorem fork_staggered {tips : List ObjectId}
    (either : ∀ tip ∈ tips, tip = .uniform 2 ∨ tip = .uniform 3) : fork.Staggered tips := by
  have times : ∀ node : Node, fork.node node.id = .ok node → node.id ∈ tips →
      node = ⟨.uniform 2, .zero, [.uniform 1], 2⟩ ∨
        node = ⟨.uniform 3, .zero, [.uniform 1], 3⟩ := by
    intro node resolved member
    rcases either node.id member with left | right
    · rw [left, fork_left] at resolved
      exact .inl (Except.ok.inj resolved).symm
    · rw [right, fork_right] at resolved
      exact .inr (Except.ok.inj resolved).symm
  intro node other resolved resolves first second same
  rcases times node resolved first with rfl | rfl <;>
    rcases times other resolves second with rfl | rfl
  · rfl
  · exact absurd same (by decide)
  · exact absurd same (by decide)
  · rfl

/-- A tip of the fork is hidden before or after the other one is started from twice. -/
theorem marks_commute_fork :
    ∃ given ending after kept twin last,
      Pass fork
        (configure fork [.mark (.hide (.uniform 3)), .mark (.start (.uniform 2)),
          .mark (.start (.uniform 2))] {} {}).1
        (configure fork [.mark (.hide (.uniform 3)), .mark (.start (.uniform 2)),
          .mark (.start (.uniform 2))] {} {}).2 given ending after kept ∧
      Pass fork
        (configure fork [.mark (.start (.uniform 2)), .mark (.hide (.uniform 3)),
          .mark (.start (.uniform 2))] {} {}).1
        (configure fork [.mark (.start (.uniform 2)), .mark (.hide (.uniform 3)),
          .mark (.start (.uniform 2))] {} {}).2 given ending twin last ∧
      ∀ id, after.marksOf id = twin.marksOf id :=
  marks_commute _ _ (Graph.faithful_empty fork) (Graph.faithful_empty fork) (.swap _ _ _) rfl rfl
    (fork_staggered (by decide))

end Walk

end Ancestry
