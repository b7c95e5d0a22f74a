import Ancestry.Proofs.Walk.Coverage

/-!
# When hiding comes in time

A walk with hidden commits visits commits in the order of the walk that starts from the
hidden ones too, as far as it goes. A commit is left out exactly if the hidden ones lead
to it through commits that come before it in that order. So what the starts and the
hidden commits both reach is left out entirely if and only if each such commit is
preceded by a path to it.
-/

namespace Ancestry

/-- In an order of visits the hidden commits lead in time to everything that the starts
reach as well: through commits that come before it. -/
def Source.Preceded (source : Source) (starts hidden : List ObjectId) (order : List Node) : Prop :=
  ∀ before node after, order = before ++ node :: after → source.Reached starts node.id →
    source.Reached hidden node.id → source.Leads (· ∈ before.map Node.id) hidden node.id

namespace Mark

/-- The same commit as a start. -/
def shown (mark : Mark) : Mark := .start mark.id

end Mark

namespace Walk

variable {source : Source} {walk other : Walk} {graph store : Graph} {node : Node}
  {rest shown order : List Node} {roots hidden starts : List ObjectId}

/-- Without hidden roots nothing is hidden. -/
theorem Settled.visible (settled : walk.Settled source roots []) (id : ObjectId) :
    ¬ walk.Hidden id := by
  intro veiled
  obtain ⟨root, member, _⟩ := (settled.exact.hidden id).mp veiled
  exact List.not_mem_nil member

/-- A course without hidden commits shows every commit that it visits. -/
theorem Course.plain_cases (plain : Course source walk order none)
    (settled : walk.Settled source roots []) :
    (walk.pending = [] ∧ order = []) ∨
      ∃ node rest met later, walk.pending = node :: rest ∧ Advances source node walk met ∧
        Course source met later none ∧ order = node :: later := by
  cases plain with
  | idle empty => exact .inl ⟨empty, rfl⟩
  | early first advances veiled | skipped first advances veiled =>
    exact absurd veiled (settled.visible _)
  | shown first advances visible course =>
    exact .inr ⟨_, _, _, _, first, advances, course, rfl⟩

/-- What waits after a visit waited before or is a parent of the visited commit. -/
theorem Advances.joined {met : Walk} (advances : Advances source node walk met)
    (consistent : walk.Consistent source) (first : walk.pending = node :: rest) {id : ObjectId}
    (waits : id ∈ met.pending.map Node.id) :
    id ∈ walk.pending.map Node.id ∨ source.Parent node.id id := by
  obtain ⟨discovered, unvisited⟩ := (advances.consistent.queued id).mp waits
  rcases (advances.discovered id).mp discovered with old | member
  · refine .inl ((consistent.queued id).mpr ⟨old, fun visited => unvisited ?_⟩)
    exact (advances.visited id).mpr (.inl visited)
  · have resolved := consistent.resolved node (by simp [first])
    exact .inr ((Source.parent_iff resolved).mpr member)

/-- In a course without hidden commits the queue leads to each commit through those that
come before it. -/
theorem Course.chain (plain : Course source walk order none)
    (settled : walk.Settled source roots []) {before after : List Node}
    (split : order = before ++ node :: after) :
    source.Leads (· ∈ before.map Node.id) (walk.pending.map Node.id) node.id := by
  induction before generalizing walk order with
  | nil =>
    rcases plain.plain_cases settled with ⟨_, none⟩ | ⟨_, _, _, _, first, _, _, some⟩
    · cases none.symm.trans split
    · cases some.symm.trans split
      exact Source.leads_root (by simp [first])
  | cons earlier before inductionHypothesis =>
    rcases plain.plain_cases settled with
      ⟨_, none⟩ | ⟨_, _, met, later, first, advances, course, some⟩
    · cases none.symm.trans split
    · cases some.symm.trans split
      have led := inductionHypothesis course (advances.settled settled) rfl
      refine Source.leads_trans (fun root waits => ?_)
        (Source.leads_mono (fun id member => List.mem_cons_of_mem earlier.id member)
          (fun _ member => member) led)
      rcases advances.joined settled.consistent first waits with waited | step
      · exact Source.leads_root waited
      · exact Source.leads_step (Source.leads_root (by simp [first])) List.mem_cons_self step

/-- What a course without a fault does with the first commit of the queue: it ends early, or
skips the commit, or shows it. -/
theorem Course.first_cases (course : Course source walk shown none)
    (first : walk.pending = node :: rest) :
    ∃ met, Advances source node walk met ∧
      ((walk.Hidden node.id ∧ shown = [] ∧ ∀ other ∈ met.pending, met.Hidden other.id) ∨
        (walk.Hidden node.id ∧ Course source met shown none) ∨
        (¬ walk.Hidden node.id ∧
          ∃ later, shown = node :: later ∧ Course source met later none)) := by
  cases course with
  | idle empty => simp [empty] at first
  | early again advances veiled all =>
    obtain rfl := (List.cons.inj (first.symm.trans again)).1
    exact ⟨_, advances, .inl ⟨veiled, rfl, all⟩⟩
  | skipped again advances veiled left course =>
    obtain rfl := (List.cons.inj (first.symm.trans again)).1
    exact ⟨_, advances, .inr (.inl ⟨veiled, course⟩)⟩
  | shown again advances visible course =>
    obtain rfl := (List.cons.inj (first.symm.trans again)).1
    exact ⟨_, advances, .inr (.inr ⟨visible, _, rfl, course⟩)⟩

/-- The first commit of the queue is shown exactly if it is not hidden. -/
theorem Course.first_shown (course : Course source walk shown none)
    (first : walk.pending = node :: rest) :
    node.id ∈ shown.map Node.id ↔ ¬ walk.Hidden node.id := by
  obtain ⟨met, advances, ⟨veiled, rfl, _⟩ | ⟨veiled, course⟩ | ⟨visible, later, rfl, _⟩⟩ :=
    course.first_cases first
  · simp [veiled]
  · have entered : met.Visited node.id := (advances.visited node.id).mpr (.inr rfl)
    refine iff_of_false (fun member => ?_) (fun visible => visible veiled)
    obtain ⟨other, inside, same⟩ := List.mem_map.mp member
    exact course.unvisited advances.consistent other inside (same ▸ entered)
  · exact iff_of_true List.mem_cons_self visible

/-- A course shows a commit of the order of visits exactly if the hidden roots do not lead
to it through commits visited before. Where the course ends early everything that
waits is hidden, and from there the hidden roots lead on to whatever is left. -/
theorem Course.sifted (course : Course source walk shown none)
    (plain : Course source other order none) (same : SameFront walk other)
    (settled : walk.Settled source roots hidden) (bare : other.Settled source starts [])
    {before after : List Node} (split : order = before ++ node :: after) :
    node.id ∈ shown.map Node.id ↔
      ¬ source.Leads (fun id => walk.Visited id ∨ id ∈ before.map Node.id) hidden node.id := by
  induction before generalizing walk other shown order with
  | nil =>
    rcases plain.plain_cases bare with ⟨_, none⟩ | ⟨_, _, _, _, first, _, _, some⟩
    · cases none.symm.trans split
    · cases some.symm.trans split
      rw [course.first_shown (same.pending.trans first), settled.exact.hidden]
      exact not_congr (Source.leads_congr (fun id => by simp) node.id)
  | cons earlier before inductionHypothesis =>
    rcases plain.plain_cases bare with
      ⟨_, none⟩ | ⟨_, _, next, later, first, advancesOther, rest, some⟩
    · cases none.symm.trans split
    · cases some.symm.trans split
      obtain ⟨met, advances, cases⟩ := course.first_cases (same.pending.trans first)
      have passed : ∀ id, met.Visited id ∨ id ∈ before.map Node.id ↔
          walk.Visited id ∨ id ∈ (earlier :: before).map Node.id := fun id => by
        rw [advances.visited, List.map_cons, List.mem_cons, or_assoc]
      have front := advances.front advancesOther same
      have onward : ∀ shown, Course source met shown none →
          (node.id ∈ shown.map Node.id ↔ ¬ source.Leads (fun id => walk.Visited id ∨
            id ∈ (earlier :: before).map Node.id) hidden node.id) := fun shown course =>
        (inductionHypothesis course rest front (advances.settled settled)
          (advancesOther.settled bare) rfl).trans (not_congr (Source.leads_congr passed node.id))
      rcases cases with ⟨_, rfl, all⟩ | ⟨_, onto⟩ | ⟨_, remaining, rfl, onto⟩
      · refine iff_of_false List.not_mem_nil (fun free => free ?_)
        rw [← Source.leads_congr passed]
        have led := rest.chain (advancesOther.settled bare) rfl
        refine Source.leads_trans (fun root waits => ?_)
          (Source.leads_mono (fun id member => .inr member) (fun _ member => member) led)
        rw [← front.pending] at waits
        obtain ⟨waiting, inside, rfl⟩ := List.mem_map.mp waits
        exact Source.leads_mono (fun id visited => .inl visited) (fun _ member => member)
          (((advances.exact roots hidden settled.exact).hidden waiting.id).mp (all waiting inside))
      · exact onward shown onto
      · have fresh : node.id ≠ earlier.id := by
          intro equal
          have entered : next.Visited node.id := (advancesOther.visited node.id).mpr (.inr equal)
          exact rest.unvisited advancesOther.consistent node (by simp) entered
        rw [List.map_cons, List.mem_cons, or_iff_right fresh]
        exact onward remaining onto

/-- A walk that starts from every marked commit hides nothing. -/
theorem Tells.bare {marks : List Mark} (plain : Tells source (marks.map Mark.shown) {} other)
    (resolved : ∀ id, source.Reached (marks.map Mark.id) id → source.Resolves id) :
    other.Marked source (marks.map Mark.id) [] := by
  have starts : marks.map Mark.shown = (marks.map Mark.id).map Mark.start := by
    rw [List.map_map]
    rfl
  exact (starts ▸ plain).plain fun id member => resolved id (Source.reached_root member)

/-- The walk with hidden commits against the one that starts from them as well: a commit
is given exactly if the hidden ones do not lead to it in time. -/
theorem Tells.sifts {marks : List Mark} (tells : Tells source marks {} walk)
    (plain : Tells source (marks.map Mark.shown) {} other)
    (resolved : ∀ id, source.Reached (marks.map Mark.id) id → source.Resolves id)
    (course : Course source walk shown none) (whole : Course source other order none)
    {before after : List Node} (split : order = before ++ node :: after) :
    node.id ∈ shown.map Node.id ↔
      ¬ source.Leads (· ∈ before.map Node.id) (marks.filterMap Mark.hidden) node.id := by
  have commits : marks.map Mark.id = (marks.map Mark.shown).map Mark.id := by
    rw [List.map_map]
    rfl
  have front := tells.front plain commits (.refl {})
  have marked := tells.resolved fun id member => resolved id (Source.reached_root member)
  rw [course.sifted whole front marked.settled (plain.bare resolved).settled split]
  refine not_congr (Source.leads_congr (fun id => ?_) node.id)
  exact or_iff_right (marked.unvisited id)

/-- Without a fault the walk that starts everywhere gives all that the marks reach. -/
theorem Tells.covers {marks : List Mark} (plain : Tells source (marks.map Mark.shown) {} other)
    (resolved : ∀ id, source.Reached (marks.map Mark.id) id → source.Resolves id)
    (whole : Course source other order none) {id : ObjectId}
    (reached : source.Reached (marks.map Mark.id) id) : id ∈ order.map Node.id := by
  have bare := plain.bare resolved
  obtain ⟨last, ends⟩ := whole.ends rfl bare.settled
  exact ends.shows bare.unvisited reached (not_reached_nil id)

/-- Exactly what only the starts reach is given if and only if the hidden commits lead in
time to all that both reach. -/
theorem Excludes.exact_iff {given : List Node} (excludes : Excludes source starts hidden given)
    (covers : ∀ id, source.Reached starts id → id ∈ order.map Node.id)
    (sifts : ∀ before node after, order = before ++ node :: after →
      (node.id ∈ given.map Node.id ↔ ¬ source.Leads (· ∈ before.map Node.id) hidden node.id)) :
    (∀ id, id ∈ given.map Node.id ↔ source.Reached starts id ∧ ¬ source.Reached hidden id) ↔
      source.Preceded starts hidden order := by
  constructor
  · intro exact before node after split reached veiled
    by_contra late
    exact ((exact node.id).mp ((sifts before node after split).mpr late)).2 veiled
  · intro preceded id
    refine ⟨fun member => ?_, fun both => excludes.complete id both.1 both.2⟩
    obtain ⟨shown, inside, rfl⟩ := List.mem_map.mp member
    have reached := excludes.started shown inside
    refine ⟨reached, fun veiled => ?_⟩
    obtain ⟨node, place, same⟩ := List.mem_map.mp (covers shown.id reached)
    obtain ⟨before, after, split⟩ := List.append_of_mem place
    refine (sifts before node after split).mp (same ▸ member) ?_
    exact preceded before node after split (same ▸ reached) (same ▸ veiled)

end Walk

end Ancestry
