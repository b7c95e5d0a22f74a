import Ancestry.Proofs.Walk.Steps

/-!
# The course of a traversal

The course of a walk is what its traversal comes to: the shown commits in the order of
their visits, and the fault that stops it, if any. No filter takes part in it. Every
consistent walk has a course, as each visit marks another identifier, and on cyclic
histories too.

A course that ends without a fault has visited everything that it could show: what is
left in the queue is hidden.
-/

namespace Ancestry.Walk

variable {source : Source} {walk : Walk} {node : Node} {rest shown : List Node}
  {ending : Option Fault} {roots hidden : List ObjectId}

/-- The shown commits and the fault that a traversal comes to. -/
inductive Course (source : Source) : Walk → List Node → Option Fault → Prop where
  | idle {walk : Walk} (empty : walk.pending = []) : Course source walk [] none
  | stuck {walk : Walk} {node : Node} {rest : List Node} {fault : Fault}
      (first : walk.pending = node :: rest)
      (unresolved : enlist source node.parents walk.knows walk.pending.tail = .error fault) :
      Course source walk [] (some fault)
  | early {walk met : Walk} {node : Node} {rest : List Node} (first : walk.pending = node :: rest)
      (advances : Advances source node walk met) (veiled : walk.Hidden node.id)
      (all : ∀ other ∈ met.pending, met.Hidden other.id) : Course source walk [] none
  | skipped {walk met : Walk} {node : Node} {rest shown : List Node} {ending : Option Fault}
      (first : walk.pending = node :: rest) (advances : Advances source node walk met)
      (veiled : walk.Hidden node.id) (left : ¬ ∀ other ∈ met.pending, met.Hidden other.id)
      (course : Course source met shown ending) : Course source walk shown ending
  | shown {walk met : Walk} {node : Node} {rest shown : List Node} {ending : Option Fault}
      (first : walk.pending = node :: rest) (advances : Advances source node walk met)
      (visible : ¬ walk.Hidden node.id) (course : Course source met shown ending) :
      Course source walk (node :: shown) ending

/-- The first commit of the queue waits to be visited. -/
theorem Consistent.waiting (consistent : walk.Consistent source)
    (first : walk.pending = node :: rest) :
    walk.Discovered node.id ∧ ¬ walk.Visited node.id :=
  (consistent.queued node.id).mp (by simp [first])

/-- A visit leaves fewer identifiers to be visited. -/
theorem Advances.fewer {met : Walk} (advances : Advances source node walk met)
    (unvisited : ¬ walk.Visited node.id) :
    ObjectId.unmarked met.Visited < ObjectId.unmarked walk.Visited :=
  ObjectId.unmarked_lt walk.Visited met.Visited
    (fun id visited => (advances.visited id).mpr (.inl visited)) node.id unvisited
    ((advances.visited node.id).mpr (.inr rfl))

/-- Every traversal comes to something. The induction is on the identifiers that are left
to be visited. -/
theorem exists_course (consistent : walk.Consistent source) :
    ∃ shown ending, Course source walk shown ending := by
  induction left : ObjectId.unmarked walk.Visited using Nat.strongRecOn generalizing walk with
  | ind left inductionHypothesis =>
    cases first : walk.pending with
    | nil => exact ⟨[], none, .idle first⟩
    | cons node rest =>
      obtain ⟨_, _, _, _, _, stuck | ⟨met, _, advances, _⟩⟩ :=
        visit_cases consistent (Graph.faithful_empty source) first
      · obtain ⟨fault, _, _, unresolved⟩ := stuck
        exact ⟨[], some fault, .stuck first unresolved⟩
      · have fewer := advances.fewer (consistent.waiting first).2
        obtain ⟨shown, ending, course⟩ :=
          inductionHypothesis _ (left ▸ fewer) advances.consistent rfl
        by_cases veiled : walk.Hidden node.id
        · by_cases all : ∀ other ∈ met.pending, met.Hidden other.id
          · exact ⟨[], none, .early first advances veiled all⟩
          · exact ⟨shown, ending, .skipped first advances veiled all course⟩
        · exact ⟨node :: shown, ending, .shown first advances veiled course⟩

/-- The course depends only on the state that steers. -/
theorem Course.congr {other : Walk} (course : Course source walk shown ending)
    (same : SameState walk other) : Course source other shown ending := by
  cases course with
  | idle empty => exact .idle (same.pending ▸ empty)
  | stuck first unresolved =>
    exact .stuck (same.pending ▸ first) (same.pending ▸ same.toSameFront.knows ▸ unresolved)
  | early first advances veiled all =>
    exact .early (same.pending ▸ first) (advances.congr_before same) ((same.hidden _).mp veiled) all
  | skipped first advances veiled left course =>
    exact .skipped (same.pending ▸ first) (advances.congr_before same) ((same.hidden _).mp veiled)
      left course
  | shown first advances visible course =>
    exact .shown (same.pending ▸ first) (advances.congr_before same)
      (fun veiled => visible ((same.hidden _).mpr veiled)) course

/-- Where a visit is stuck a course shows nothing and ends with the fault. -/
theorem Course.of_stuck {fault : Fault} (course : Course source walk shown ending)
    (first : walk.pending = node :: rest)
    (unresolved : enlist source node.parents walk.knows walk.pending.tail = .error fault) :
    shown = [] ∧ ending = some fault := by
  cases course with
  | idle empty => simp [empty] at first
  | stuck again reason =>
    obtain rfl := (List.cons.inj (first.symm.trans again)).1
    rw [unresolved] at reason
    cases reason
    exact ⟨rfl, rfl⟩
  | early again advances | skipped again advances | shown again advances =>
    obtain rfl := (List.cons.inj (first.symm.trans again)).1
    have queue := advances.queue
    rw [unresolved] at queue
    cases queue

/-- What a course shows from a visit on: it ends early, or it skips the commit, or it shows it. -/
theorem Course.after {met : Walk} (course : Course source walk shown ending)
    (settled : walk.Settled source roots hidden) (first : walk.pending = node :: rest)
    (advances : Advances source node walk met) :
    (walk.Hidden node.id ∧ (∀ other ∈ met.pending, met.Hidden other.id) ∧
        shown = [] ∧ ending = none) ∨
      (walk.Hidden node.id ∧ (¬ ∀ other ∈ met.pending, met.Hidden other.id) ∧
        Course source met shown ending) ∨
      (¬ walk.Hidden node.id ∧
        ∃ later, shown = node :: later ∧ Course source met later ending) := by
  cases course with
  | idle empty => simp [empty] at first
  | stuck again unresolved =>
    obtain rfl := (List.cons.inj (first.symm.trans again)).1
    rw [advances.queue] at unresolved
    cases unresolved
  | early again others veiled all =>
    obtain rfl := (List.cons.inj (first.symm.trans again)).1
    have same := others.unique advances (.refl walk) settled
    refine .inl ⟨veiled, fun other member => ?_, rfl, rfl⟩
    exact (same.hidden other.id).mp (all other (same.pending ▸ member))
  | skipped again others veiled left course =>
    obtain rfl := (List.cons.inj (first.symm.trans again)).1
    have same := others.unique advances (.refl walk) settled
    refine .inr (.inl ⟨veiled, fun all => left fun other member => ?_, course.congr same⟩)
    exact (same.hidden other.id).mpr (all other (same.pending ▸ member))
  | shown again others visible course =>
    obtain rfl := (List.cons.inj (first.symm.trans again)).1
    have same := others.unique advances (.refl walk) settled
    exact .inr (.inr ⟨visible, _, rfl, course.congr same⟩)

/-- What holds of every commit at its visit, as far as it is shown then, holds of all that
a course shows. -/
theorem Course.each (course : Course source walk shown ending) (claim : Node → Prop)
    (settled : walk.Settled source roots hidden)
    (visits : ∀ (walk : Walk) (node : Node) (rest : List Node),
      walk.Settled source roots hidden → walk.pending = node :: rest → ¬ walk.Hidden node.id →
      claim node) :
    ∀ node ∈ shown, claim node := by
  induction course with
  | idle | stuck | early => simp
  | skipped first advances veiled left course inductionHypothesis =>
    exact inductionHypothesis (advances.settled settled)
  | shown first advances visible course inductionHypothesis =>
    intro other member
    rcases List.mem_cons.mp member with rfl | member
    · exact visits _ _ _ settled first visible
    · exact inductionHypothesis (advances.settled settled) other member

/-- What is shown has not been visited before. -/
theorem Course.unvisited (course : Course source walk shown ending)
    (consistent : walk.Consistent source) : ∀ node ∈ shown, ¬ walk.Visited node.id := by
  induction course with
  | idle | stuck | early => simp
  | skipped first advances veiled left course inductionHypothesis =>
    intro other member visited
    exact inductionHypothesis advances.consistent other member
      ((advances.visited other.id).mpr (.inl visited))
  | shown first advances visible course inductionHypothesis =>
    intro other member
    rcases List.mem_cons.mp member with rfl | member
    · exact (consistent.waiting first).2
    · intro visited
      exact inductionHypothesis advances.consistent other member
        ((advances.visited other.id).mpr (.inl visited))

/-- Nothing is shown twice. -/
theorem Course.distinct (course : Course source walk shown ending)
    (consistent : walk.Consistent source) : (shown.map Node.id).Nodup := by
  induction course with
  | idle | stuck | early => exact List.nodup_nil
  | skipped first advances veiled left course inductionHypothesis =>
    exact inductionHypothesis advances.consistent
  | @shown _ _ node _ _ _ first advances visible course inductionHypothesis =>
    refine List.nodup_cons.mpr ⟨fun member => ?_, inductionHypothesis advances.consistent⟩
    obtain ⟨other, inside, same⟩ := List.mem_map.mp member
    refine course.unvisited advances.consistent other inside ?_
    rw [same]
    exact (advances.visited node.id).mpr (.inr rfl)

/-- The state in which a traversal without a fault ends: what waits is hidden, and what
was visited in its course is hidden or shown. -/
structure Ends (source : Source) (roots hidden : List ObjectId) (walk : Walk) (shown : List Node)
    (last : Walk) : Prop where
  consistent : last.Consistent source
  exact : last.Exact source roots hidden
  waiting : ∀ node ∈ last.pending, last.Hidden node.id
  grown : ∀ id, walk.Visited id → last.Visited id
  visited : ∀ id, last.Visited id → walk.Visited id ∨ last.Hidden id ∨ id ∈ shown.map Node.id

/-- A hidden commit stays hidden while more commits are visited. -/
theorem Exact.hidden_mono {later : Walk} (exactness : walk.Exact source roots hidden)
    (after : later.Exact source roots hidden)
    (grown : ∀ id, walk.Visited id → later.Visited id) (id : ObjectId)
    (veiled : walk.Hidden id) : later.Hidden id :=
  (after.hidden id).mpr
    (Source.leads_mono grown (fun _ member => member) ((exactness.hidden id).mp veiled))

/-- Where the traversal meets no fault, it ends with nothing left to show. -/
theorem Course.ends (course : Course source walk shown ending) (clean : ending = none)
    (settled : walk.Settled source roots hidden) :
    ∃ last, Ends source roots hidden walk shown last := by
  induction course with
  | @idle walk empty =>
    exact ⟨walk, settled.consistent, settled.exact, by simp [empty], fun _ visited => visited,
      fun _ => Or.inl⟩
  | stuck => cases clean
  | @early walk met node rest first advances veiled all =>
    have after := advances.settled settled
    have grown : ∀ id, walk.Visited id → met.Visited id := fun id visited =>
      (advances.visited id).mpr (.inl visited)
    refine ⟨met, after.consistent, after.exact, all, grown, fun id visited => ?_⟩
    rcases (advances.visited id).mp visited with visited | rfl
    · exact .inl visited
    · exact .inr (.inl (settled.exact.hidden_mono after.exact grown node.id veiled))
  | @skipped walk met node rest shown ending first advances veiled left course
      inductionHypothesis =>
    obtain ⟨last, ends⟩ := inductionHypothesis clean (advances.settled settled)
    have grown : ∀ id, walk.Visited id → last.Visited id := fun id visited =>
      ends.grown id ((advances.visited id).mpr (.inl visited))
    refine ⟨last, ends.consistent, ends.exact, ends.waiting, grown, fun id visited => ?_⟩
    rcases ends.visited id visited with visited | veiledOrShown
    · rcases (advances.visited id).mp visited with visited | rfl
      · exact .inl visited
      · exact .inr (.inl (settled.exact.hidden_mono ends.exact grown node.id veiled))
    · exact .inr veiledOrShown
  | @shown walk met node rest shown ending first advances visible course inductionHypothesis =>
    obtain ⟨last, ends⟩ := inductionHypothesis clean (advances.settled settled)
    refine ⟨last, ends.consistent, ends.exact, ends.waiting,
      fun id visited => ends.grown id ((advances.visited id).mpr (.inl visited)),
      fun id visited => ?_⟩
    rcases ends.visited id visited with visited | veiled | member
    · rcases (advances.visited id).mp visited with visited | rfl
      · exact .inl visited
      · exact .inr (.inr List.mem_cons_self)
    · exact .inr (.inl veiled)
    · exact .inr (.inr (List.mem_cons_of_mem node.id member))

/-- A visit is stuck only at a commit that the roots reach and that does not resolve. -/
theorem Settled.stuck {fault : Fault} (settled : walk.Settled source roots hidden)
    (first : walk.pending = node :: rest)
    (unresolved : enlist source node.parents walk.knows walk.pending.tail = .error fault) :
    ∃ id, source.Reached roots id ∧ source.node id = .error fault := by
  obtain ⟨parent, member, unresolved⟩ := enlist_fault _ _ _ _ unresolved
  have reached : source.Reached roots node.id :=
    Source.reached_of_leads
      ((settled.exact.discovered node.id).mp (settled.consistent.waiting first).1)
  have resolved := settled.consistent.resolved node (by simp [first])
  exact ⟨parent, Source.reached_step reached ((Source.parent_iff resolved).mpr member),
    unresolved⟩

/-- No visit is stuck where everything that is reached resolves. -/
theorem Settled.not_stuck (settled : walk.Settled source roots hidden)
    (resolves : ∀ id, source.Reached roots id → source.Resolves id)
    (first : walk.pending = node :: rest) (fault : Fault) :
    enlist source node.parents walk.knows walk.pending.tail ≠ .error fault := by
  intro unresolved
  obtain ⟨id, reached, missing⟩ := settled.stuck first unresolved
  obtain ⟨other, found⟩ := resolves id reached
  rw [missing] at found
  cases found

/-- A fault comes from a commit that the roots reach and that does not resolve. -/
theorem Course.fault (course : Course source walk shown ending) {fault : Fault}
    (failed : ending = some fault) (settled : walk.Settled source roots hidden) :
    ∃ id, source.Reached roots id ∧ source.node id = .error fault := by
  induction course with
  | idle | early => cases failed
  | stuck first unresolved =>
    cases failed
    exact settled.stuck first unresolved
  | skipped first advances veiled left course inductionHypothesis =>
    exact inductionHypothesis failed (advances.settled settled)
  | shown first advances visible course inductionHypothesis =>
    exact inductionHypothesis failed (advances.settled settled)

/-- In the end a discovered commit is visited, or it waits and is hidden. -/
theorem Ends.settled {last : Walk} (ends : Ends source roots hidden walk shown last)
    {id : ObjectId} (discovered : last.Discovered id) :
    source.Reached hidden id ∨ last.Visited id := by
  by_cases visited : last.Visited id
  · exact .inr visited
  · obtain ⟨node, member, rfl⟩ :=
      List.mem_map.mp ((ends.consistent.queued id).mpr ⟨discovered, visited⟩)
    have veiled := ends.waiting node member
    exact .inl (Source.reached_of_leads ((ends.exact.hidden node.id).mp veiled))

/-- In the end the roots reach nothing that is neither hidden nor visited. A path to such
a commit would leave the visited ones at a commit that waits, and what waits is hidden. -/
theorem Ends.covers {last : Walk} (ends : Ends source roots hidden walk shown last)
    {id : ObjectId} (reached : source.Reached roots id)
    (free : ¬ source.Reached hidden id) : last.Visited id := by
  have covered : source.Reached hidden id ∨ last.Visited id := by
    refine Source.reached_least (fun id => source.Reached hidden id ∨ last.Visited id) ?_ ?_ reached
    · intro root member
      exact ends.settled ((ends.exact.discovered root).mpr (Source.leads_root member))
    · rintro child parent (veiled | visited) step
      · exact .inl (Source.reached_step veiled step)
      · have discovered :=
          (ends.exact.discovered child).mp (ends.consistent.entered child visited).1
        exact ends.settled
          ((ends.exact.discovered parent).mpr (Source.leads_step discovered visited step))
  exact covered.resolve_left free

end Ancestry.Walk
