import Ancestry.Proofs.Walk.Exclusion

/-!
# Times along a traversal

The queue gives its latest commit first. Where no commit is older than its parents, what
joins the queue after a visit is not later than the visited commit. So a traversal visits
commits in falling order of their times, whatever it starts from and hides.
-/

namespace Ancestry

/-- Along every path from the roots no commit is older than its parents. -/
def Source.Recedes (source : Source) (roots : List ObjectId) : Prop :=
  ∀ child parent : Node, source.Reached roots child.id → source.node child.id = .ok child →
    source.node parent.id = .ok parent → parent.id ∈ child.parents → parent.time ≤ child.time

/-- Where times recede from some roots on they recede from fewer roots on. -/
theorem Source.Recedes.mono {source : Source} {roots others : List ObjectId}
    (recedes : source.Recedes others) (included : ∀ root ∈ roots, root ∈ others) :
    source.Recedes roots :=
  fun child parent reached => recedes child parent (Source.reached_mono included reached)

/-- Times that strictly fall do not rise. -/
theorem Source.Descends.recedes {source : Source} {roots : List ObjectId}
    (descends : source.Descends roots) : source.Recedes roots := by
  intro child parent reached resolved resolves member
  exact Int.le_of_lt (descends child parent reached resolved resolves member)

namespace Walk

variable {source : Source} {walk met : Walk} {node : Node} {rest shown : List Node}
  {ending : Option Fault} {roots hidden : List ObjectId} {time : Int}

/-- What waits after a visit is not later than what waited before. -/
theorem Advances.not_later (advances : Advances source node walk met)
    (settled : walk.Settled source roots hidden) (recedes : source.Recedes roots)
    (first : walk.pending = node :: rest) (bound : ∀ waiting ∈ walk.pending, waiting.time ≤ time) :
    ∀ waiting ∈ met.pending, waiting.time ≤ time := by
  intro waiting member
  have resolved := settled.consistent.resolved node (by simp [first])
  have resolves := advances.consistent.resolved waiting member
  rcases advances.joined settled.consistent first (List.mem_map_of_mem member) with waited | step
  · obtain ⟨other, inside, same⟩ := List.mem_map.mp waited
    have known := settled.consistent.resolved other inside
    rw [same, resolves] at known
    obtain rfl := Except.ok.inj known
    exact bound waiting inside
  · have reached : source.Reached roots node.id :=
      Source.reached_of_leads
        ((settled.exact.discovered node.id).mp (settled.consistent.waiting first).1)
    have older : waiting.time ≤ node.time :=
      recedes node waiting reached resolved resolves ((Source.parent_iff resolved).mp step)
    exact Int.le_trans older (bound node (by simp [first]))

/-- What is shown is not later than what waits. -/
theorem Course.not_later (course : Course source walk shown ending)
    (settled : walk.Settled source roots hidden) (recedes : source.Recedes roots)
    (bound : ∀ waiting ∈ walk.pending, waiting.time ≤ time) :
    ∀ other ∈ shown, other.time ≤ time := by
  induction course with
  | idle | stuck | early => simp
  | skipped first advances veiled left course inductionHypothesis =>
    exact inductionHypothesis (advances.settled settled)
      (advances.not_later settled recedes first bound)
  | @shown walk met node rest shown ending first advances visible course inductionHypothesis =>
    intro other member
    rcases List.mem_cons.mp member with rfl | member
    · exact bound other (by simp [first])
    · exact inductionHypothesis (advances.settled settled)
        (advances.not_later settled recedes first bound) other member

/-- Where no commit is older than its parents, a traversal shows the latest commits
first. -/
theorem Course.falls (course : Course source walk shown ending)
    (settled : walk.Settled source roots hidden) (recedes : source.Recedes roots) :
    shown.Pairwise fun earlier later => later.time ≤ earlier.time := by
  induction course with
  | idle | stuck | early => exact List.Pairwise.nil
  | skipped first advances veiled left course inductionHypothesis =>
    exact inductionHypothesis (advances.settled settled)
  | @shown walk met node rest shown ending first advances visible course inductionHypothesis =>
    have after := advances.settled settled
    have bound : ∀ waiting ∈ walk.pending, waiting.time ≤ node.time := by
      have sorted := settled.consistent.sorted
      rw [first] at sorted ⊢
      intro waiting member
      rcases List.mem_cons.mp member with rfl | member
      · exact Int.le_refl _
      · exact (List.pairwise_cons.mp sorted).1 waiting member
    refine List.pairwise_cons.mpr ⟨?_, inductionHypothesis after⟩
    exact course.not_later after recedes (advances.not_later settled recedes first bound)

end Walk

end Ancestry
