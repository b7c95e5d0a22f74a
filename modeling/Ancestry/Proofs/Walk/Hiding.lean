import Ancestry.Proofs.Identifiers
import Ancestry.Proofs.Walk.State

/-!
# Hiding commits

Hiding a commit hides what it leads to through visited commits, and nothing else. The
search never asks for a commit that has not been read before, so that it cannot fail, and
each of its rounds hides another identifier, so that it ends on cyclic histories too. It
stops at commits that were hidden before; which commits these are does not matter for
what becomes hidden, only for what is known about their parents.
-/

namespace Ancestry.Walk

variable {source : Source} {walk : Walk} {graph : Graph}

/-- Hidden commits are added: the roots, and with each added visited commit its parents,
but nothing to which the roots do not lead. -/
structure HiddenGrows (source : Source) (roots : List ObjectId) (before after : Walk) : Prop where
  visited : ∀ id, after.Visited id ↔ before.Visited id
  grown : ∀ id, before.Hidden id → after.Hidden id
  rooted : ∀ root ∈ roots, after.Hidden root
  closed : ∀ child parent, after.Hidden child → ¬ before.Hidden child → before.Visited child →
    source.Parent child parent → after.Hidden parent
  sound : ∀ id, after.Hidden id → before.Hidden id ∨ source.Leads before.Visited roots id

/-- Nothing is added without roots. -/
theorem HiddenGrows.refl (walk : Walk) : HiddenGrows source [] walk walk :=
  ⟨fun _ => .rfl, fun _ hidden => hidden, by simp, fun _ _ hidden absent => absurd hidden absent,
    fun _ => Or.inl⟩

/-- What some roots hide and then others is what both of them hide.

Proof: a commit that was newly hidden by the first roots is closed by them, and stays so as nothing
is shown again. A path of the second roots passes the same visited commits. -/
theorem HiddenGrows.trans {first second : List ObjectId} {before between after : Walk}
    (early : HiddenGrows source first before between)
    (late : HiddenGrows source second between after) :
    HiddenGrows source (first ++ second) before after where
  visited id := (late.visited id).trans (early.visited id)
  grown id hidden := late.grown id (early.grown id hidden)
  rooted root member := by
    rcases List.mem_append.mp member with member | member
    · exact late.grown root (early.rooted root member)
    · exact late.rooted root member
  closed child parent hidden absent visited step := by
    by_cases added : between.Hidden child
    · exact late.grown parent (early.closed child parent added absent visited step)
    · exact late.closed child parent hidden added ((early.visited child).mpr visited) step
  sound id hidden := by
    rcases late.sound id hidden with hidden | led
    · refine (early.sound id hidden).imp_right ?_
      exact Source.leads_mono (fun _ passed => passed)
        fun _ member => List.mem_append_left second member
    · refine .inr (Source.leads_mono (fun other => (early.visited other).mp) ?_ led)
      exact fun _ member => List.mem_append_right first member

/-- Without roots the same commits are hidden as before. -/
theorem HiddenGrows.hidden_iff {before after : Walk} (grows : HiddenGrows source [] before after)
    (id : ObjectId) : after.Hidden id ↔ before.Hidden id := by
  constructor
  · intro hidden
    rcases grows.sound id hidden with hidden | ⟨root, member, _⟩
    · exact hidden
    · exact absurd member List.not_mem_nil
  · exact grows.grown id

/-- Hidden commits are added, and nothing else changes. -/
structure Spreads (source : Source) (roots : List ObjectId) (before after : Walk) : Prop extends
    HiddenGrows source roots before after where
  front : SameFront before after
  rest : KeepsRest before after

/-- Without roots nothing is hidden. -/
theorem Spreads.refl (walk : Walk) : Spreads source [] walk walk :=
  ⟨.refl walk, .refl walk, .refl walk⟩

/-- What some roots hide and then others is what both of them hide. -/
theorem Spreads.trans {first second : List ObjectId} {before between after : Walk}
    (early : Spreads source first before between) (late : Spreads source second between after) :
    Spreads source (first ++ second) before after :=
  ⟨early.toHiddenGrows.trans late.toHiddenGrows, early.front.trans late.front,
    early.rest.trans late.rest⟩

/-- A hidden commit stays as it is. -/
theorem Spreads.known {id : ObjectId} (hidden : walk.Hidden id) : Spreads source [id] walk walk :=
  ⟨⟨fun _ => .rfl, fun _ hidden => hidden, by simpa using hidden,
    fun _ _ hidden absent => absurd hidden absent, fun _ => Or.inl⟩, .refl walk, .refl walk⟩

section one

/-- The walk with one more hidden commit and another counter. -/
def hideOne (walk : Walk) (id : ObjectId) (interesting : Nat) : Walk :=
  { walk.mark id ({ · with uninteresting := true }) with interesting }

/-- Of all marks the one that changes is that the commit is hidden. -/
theorem marksOf_hideOne (id other : ObjectId) (interesting : Nat) :
    (walk.hideOne id interesting).marksOf other =
      if other = id then { walk.marksOf id with uninteresting := true } else walk.marksOf other :=
  marksOf_mark walk id other ({ · with uninteresting := true })

/-- One commit more is hidden. -/
theorem hideOne_hidden (id other : ObjectId) (interesting : Nat) :
    (walk.hideOne id interesting).Hidden other ↔ walk.Hidden other ∨ other = id := by
  rw [Hidden, marksOf_hideOne]
  by_cases same : other = id <;> simp [Hidden, same]

/-- One identifier less is left to be hidden. -/
theorem hideOne_fewer (id : ObjectId) (interesting : Nat) (shown : ¬ walk.Hidden id) :
    ObjectId.unmarked (walk.hideOne id interesting).Hidden < ObjectId.unmarked walk.Hidden := by
  apply ObjectId.unmarked_lt walk.Hidden (walk.hideOne id interesting).Hidden
  · intro other old
    exact (hideOne_hidden id other interesting).mpr (.inl old)
  · exact shown
  · exact (hideOne_hidden id id interesting).mpr (.inr rfl)

/-- Hiding a commit touches neither the queue nor what was discovered or visited. -/
theorem hideOne_front (walk : Walk) (id : ObjectId) (interesting : Nat) :
    SameFront walk (walk.hideOne id interesting) := by
  refine ⟨rfl, fun other => ?_, fun other => ?_⟩
  · rw [Discovered, Discovered, marksOf_hideOne]
    by_cases same : other = id <;> simp [same]
  · rw [Visited, Visited, marksOf_hideOne]
    by_cases same : other = id <;> simp [same]

/-- Hiding touches the mark of the hidden and the counter only. -/
theorem hideOne_keeps (id : ObjectId) (interesting : Nat) :
    KeepsRest walk (walk.hideOne id interesting) :=
  .of_marks id ({ · with uninteresting := true })
    (fun other => marksOf_hideOne id other interesting) (fun _ => ⟨rfl, rfl, rfl⟩)
    ⟨rfl, rfl, rfl⟩ rfl

/-- Hiding one commit spreads from it as long as it has not been visited. -/
theorem hideOne_spreads (id : ObjectId) (interesting : Nat) (unvisited : ¬ walk.Visited id) :
    Spreads source [id] walk (walk.hideOne id interesting) := by
  refine ⟨⟨fun other => ((hideOne_front walk id interesting).visited other).symm,
    fun other hidden => (hideOne_hidden id other interesting).mpr (.inl hidden), ?_, ?_, ?_⟩,
    hideOne_front walk id interesting, hideOne_keeps id interesting⟩
  · intro root member
    exact (hideOne_hidden id root interesting).mpr (.inr (List.mem_singleton.mp member))
  · intro child parent hidden absent visited _
    rcases (hideOne_hidden id child interesting).mp hidden with hidden | rfl
    · exact absurd hidden absent
    · exact absurd visited unvisited
  · intro other hidden
    rcases (hideOne_hidden id other interesting).mp hidden with hidden | rfl
    · exact .inl hidden
    · exact .inr (Source.leads_root List.mem_cons_self)

/-- Taking one shown node out of a count of distinct nodes lowers it by one. -/
theorem countP_except (queue : List Node) (shown : Node → Bool) (node : Node)
    (distinct : (queue.map Node.id).Nodup) (member : node ∈ queue) (counts : shown node = true) :
    queue.countP (fun other => shown other && other.id != node.id) + 1 = queue.countP shown := by
  induction queue with
  | nil => exact absurd member List.not_mem_nil
  | cons first rest inductionHypothesis =>
    obtain ⟨absent, distinctRest⟩ := List.nodup_cons.mp (List.map_cons ▸ distinct)
    rcases List.mem_cons.mp member with rfl | member
    · have others : rest.countP (fun other => shown other && other.id != node.id) =
          rest.countP shown := by
        apply List.countP_congr
        intro other inside
        have different : other.id ≠ node.id := fun same =>
          absent (same ▸ List.mem_map_of_mem inside)
        simp [different]
      simp [counts, others]
    · have different : first.id ≠ node.id := fun same =>
        absent (same ▸ List.mem_map_of_mem member)
      have fewer := inductionHypothesis distinctRest member
      simp only [List.countP_cons, bne_iff_ne.mpr different, Bool.and_true]
      omega

/-- All is shown as before but for the commit that is hidden. -/
theorem shows_hideOne (id : ObjectId) (interesting : Nat) :
    (walk.hideOne id interesting).shows = fun node => walk.shows node && node.id != id := by
  funext node
  rw [Bool.eq_iff_iff, shows_iff, hideOne_hidden, Bool.and_eq_true, shows_iff, bne_iff_ne, not_or]

/-- Hiding one commit keeps a walk consistent if the new counter leaves it out. -/
theorem Consistent.hideOne (consistent : walk.Consistent source) (id : ObjectId)
    (interesting : Nat)
    (counted : interesting = walk.pending.countP fun node => walk.shows node && node.id != id) :
    (walk.hideOne id interesting).Consistent source := by
  have front := hideOne_front walk id interesting
  refine ⟨fun other => ?_, consistent.distinct, consistent.resolved, fun other visited => ?_, ?_,
    consistent.sorted⟩
  · rw [← front.discovered, ← front.visited]
    exact consistent.queued other
  · rw [← front.discovered]
    exact consistent.entered other ((front.visited other).mpr visited)
  · rw [shows_hideOne]
    exact counted

/-- The counter stays when the commit does not wait in the queue. -/
theorem Consistent.hide_absent (consistent : walk.Consistent source) (id : ObjectId)
    (absent : ¬ (walk.Discovered id ∧ ¬ walk.Visited id)) :
    (walk.hideOne id walk.interesting).Consistent source := by
  refine consistent.hideOne id walk.interesting ?_
  rw [consistent.counted]
  apply List.countP_congr
  intro node member
  have different : node.id ≠ id := by
    rintro rfl
    exact absent ((consistent.queued node.id).mp (List.mem_map_of_mem member))
  simp [different]

/-- The counter falls by one when a shown commit waits in the queue. -/
theorem Consistent.hide_waiting (consistent : walk.Consistent source) (id : ObjectId)
    (waiting : walk.Discovered id ∧ ¬ walk.Visited id) (shown : ¬ walk.Hidden id) :
    (walk.hideOne id (walk.interesting - 1)).Consistent source := by
  obtain ⟨node, member, rfl⟩ := List.mem_map.mp ((consistent.queued id).mpr waiting)
  refine consistent.hideOne node.id (walk.interesting - 1) ?_
  have counted := consistent.counted
  have fewer := countP_except walk.pending walk.shows node consistent.distinct member
    ((shows_iff walk node).mpr shown)
  omega

end one

/-- An operation hides what some roots lead to and succeeds, in every consistent walk with
at most `most` commits that are not hidden. -/
def HidesFrom (source : Source) (most : Nat) (roots : List ObjectId) (action : Action Unit) :
    Prop :=
  ∀ walk graph, walk.Consistent source → graph.Faithful source →
    ObjectId.unmarked walk.Hidden ≤ most →
    ∃ after kept, action walk graph = (.ok (), after, kept) ∧ Spreads source roots walk after ∧
      after.Consistent source ∧ kept.Faithful source

/-- Roots that are hidden one by one are hidden together. -/
theorem eachOf_hides (most : Nat) (step : ObjectId → Action Unit)
    (each : ∀ id, HidesFrom source most [id] (step id)) (ids : List ObjectId) :
    HidesFrom source most ids (eachOf step ids) := by
  induction ids with
  | nil =>
    exact fun walk graph consistent faithful _ =>
      ⟨walk, graph, rfl, .refl walk, consistent, faithful⟩
  | cons id rest inductionHypothesis =>
    intro walk graph consistent faithful enough
    obtain ⟨between, kept, ran, early, consistent, faithful⟩ :=
      each id walk graph consistent faithful enough
    have stillEnough : ObjectId.unmarked between.Hidden ≤ most :=
      (ObjectId.unmarked_mono _ _ early.grown).trans enough
    obtain ⟨after, last, finished, late, consistent, faithful⟩ :=
      inductionHypothesis between kept consistent faithful stillEnough
    exact ⟨after, last, by simp only [eachOf, ran, finished], early.trans late, consistent,
      faithful⟩

/-- What the parents of a visited commit lead to is what the commit leads to. -/
theorem Spreads.through {id : ObjectId} {node : Node} {after : Walk} (interesting : Nat)
    (resolved : source.node id = .ok node) (visited : walk.Visited id)
    (spread : Spreads source node.parents.reverse (walk.hideOne id interesting) after) :
    Spreads source [id] walk after := by
  have front := hideOne_front walk id interesting
  refine ⟨⟨fun other => (spread.visited other).trans (front.visited other).symm,
    fun other hidden =>
      spread.grown other ((hideOne_hidden id other interesting).mpr (.inl hidden)),
    ?_, ?_, ?_⟩, front.trans spread.front, (hideOne_keeps id interesting).trans spread.rest⟩
  · intro root member
    exact spread.grown root
      ((hideOne_hidden id root interesting).mpr (.inr (List.mem_singleton.mp member)))
  · intro child parent hidden absent passed step
    by_cases same : child = id
    · have named : parent ∈ node.parents := (Source.parent_iff (same ▸ resolved)).mp (same ▸ step)
      exact spread.rooted parent (List.mem_reverse.mpr named)
    · refine spread.closed child parent hidden ?_ ((front.visited child).mp passed) step
      rw [hideOne_hidden]
      exact fun either => either.elim absent same
  · intro other hidden
    rcases spread.sound other hidden with hidden | led
    · rcases (hideOne_hidden id other interesting).mp hidden with hidden | rfl
      · exact .inl hidden
      · exact .inr (Source.leads_root List.mem_cons_self)
    · refine .inr (Source.leads_trans (fun root member => ?_)
        (Source.leads_mono (fun passed => (front.visited passed).mpr) (fun _ inside => inside) led))
      exact Source.leads_step (Source.leads_root List.mem_cons_self) visited
        ((Source.parent_iff resolved).mpr (List.mem_reverse.mp member))

/-- The search from one commit. Each round hides an identifier, so that a bound on those
that are left is a bound on its depth: without any left the commit is hidden already. -/
theorem hideWithin_hides (most : Nat) (id : ObjectId) :
    HidesFrom source most [id] (hideWithin source most id) := by
  induction most generalizing id with
  | zero =>
    intro walk graph consistent faithful enough
    have hidden : walk.Hidden id := by
      by_contra absent
      have left := ObjectId.unmarked_pos walk.Hidden id absent
      omega
    exact ⟨walk, graph,
      by simp [hideWithin, show (walk.marksOf id).uninteresting = true from hidden],
      .known hidden, consistent, faithful⟩
  | succ most inductionHypothesis =>
    intro walk graph consistent faithful enough
    by_cases hidden : walk.Hidden id
    · exact ⟨walk, graph,
        by simp [hideWithin, show (walk.marksOf id).uninteresting = true from hidden],
        .known hidden, consistent, faithful⟩
    have shown : ¬ (walk.marksOf id).uninteresting = true := hidden
    by_cases visited : walk.Visited id
    · obtain ⟨node, resolved⟩ := (consistent.entered id visited).2
      obtain ⟨kept, answered, faithful⟩ := faithful.resolve id
      have marked := consistent.hide_absent id fun waiting => waiting.2 visited
      have fewer := hideOne_fewer id walk.interesting hidden
      obtain ⟨after, last, ran, spread, consistent, faithful⟩ :=
        eachOf_hides most (hideWithin source most) inductionHypothesis node.parents.reverse
          (walk.hideOne id walk.interesting) kept marked faithful (by omega)
      refine ⟨after, last, ?_, spread.through walk.interesting resolved visited, consistent,
        faithful⟩
      simp only [hideWithin, shown, show (walk.marksOf id).headerRead = true from visited, answered,
        resolved, if_true]
      exact ran
    · have unread : ¬ (walk.marksOf id).headerRead = true := visited
      by_cases discovered : walk.Discovered id
      · refine ⟨walk.hideOne id (walk.interesting - 1), graph, ?_, hideOne_spreads id _ visited,
          consistent.hide_waiting id ⟨discovered, visited⟩ hidden, faithful⟩
        simp only [hideWithin, shown, unread,
          show (walk.marksOf id).discovered = true from discovered, if_true]
        rfl
      · refine ⟨walk.hideOne id walk.interesting, graph, ?_, hideOne_spreads id _ visited,
          consistent.hide_absent id fun waiting => discovered waiting.1, faithful⟩
        have unknown : ¬ (walk.marksOf id).discovered = true := discovered
        simp only [hideWithin, shown, unread, unknown]
        rfl

/-- Hiding succeeds in every consistent walk: there are enough rounds for all
identifiers. -/
theorem carryHidden_hides (id : ObjectId) (consistent : walk.Consistent source)
    (faithful : graph.Faithful source) :
    ∃ after kept, carryHidden source id walk graph = (.ok (), after, kept) ∧
      Spreads source [id] walk after ∧ after.Consistent source ∧ kept.Faithful source :=
  hideWithin_hides ObjectId.total id walk graph consistent faithful
    (ObjectId.unmarked_le_total walk.Hidden)

end Ancestry.Walk
