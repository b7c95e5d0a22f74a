import Ancestry.Proofs.Walk.Hiding
import Ancestry.Proofs.Walk.Sequencing

/-!
# Hiding with a stack

What a commit leads to can also be hidden in a loop, over a stack of commits that are still to be
hidden. The top commit is marked, and the parents of a visited commit take its place. The loop
ends from every stack, whatever the source holds and whatever the walk has marked: a round either
marks another identifier or leaves one commit less on the stack. It comes to what hiding the
commits one after another comes to.
-/

namespace Ancestry.Walk

variable {source : Source} {walk : Walk} {graph : Graph} {ids rest : List ObjectId}
  {result : Except Fault Unit × Walk × Graph}

/-- A walk and a graph, with the commits that are still to be hidden. The first one is on top. -/
structure Stack where
  waiting : List ObjectId
  walk : Walk
  graph : Graph

/-- One round of the loop: its result where it is over, and else the stack that it goes on with.
The parents of a commit are put onto the stack in stored order, so that the last one is on top. -/
def Stack.round (source : Source) : Stack → (Except Fault Unit × Walk × Graph) ⊕ Stack
  | ⟨[], walk, graph⟩ => .inl (.ok (), walk, graph)
  | ⟨id :: rest, walk, graph⟩ =>
    let marks := walk.marksOf id
    if marks.uninteresting then .inr ⟨rest, walk, graph⟩
    else
      let walk := walk.mark id ({ · with uninteresting := true })
      if marks.headerRead then
        match graph.resolve source id with
        | (.error fault, graph) => .inl (.error fault, walk, graph)
        | (.ok node, graph) => .inr ⟨node.parents.reverse ++ rest, walk, graph⟩
      else if marks.discovered then
        .inr ⟨rest, { walk with interesting := walk.interesting - 1 }, graph⟩
      else .inr ⟨rest, walk, graph⟩

/-- The loop is over after finitely many rounds, with this result. -/
inductive Rounds (source : Source) : Stack → Except Fault Unit × Walk × Graph → Prop where
  | ended {stack : Stack} {result : Except Fault Unit × Walk × Graph}
      (last : stack.round source = .inl result) : Rounds source stack result
  | more {stack next : Stack} {result : Except Fault Unit × Walk × Graph}
      (goes : stack.round source = .inr next) (rounds : Rounds source next result) :
      Rounds source stack result

/-- The loop has no two results. -/
theorem Rounds.unique {stack : Stack} {other : Except Fault Unit × Walk × Graph}
    (rounds : Rounds source stack result) (again : Rounds source stack other) : other = result := by
  induction rounds with
  | ended last =>
    cases again with
    | ended also => exact (Sum.inl.inj (last.symm.trans also)).symm
    | more goes => cases last.symm.trans goes
  | more goes rounds inductionHypothesis =>
    cases again with
    | ended also => cases goes.symm.trans also
    | more onward again =>
      obtain rfl := Sum.inr.inj (goes.symm.trans onward)
      exact inductionHypothesis again

/-- A result that the loop comes to when it takes some commits from the top of any stack. Where it
is a success the loop goes on with what was below them, and where it is a fault the loop is over.
No hidden commit is shown again. -/
structure Clears (source : Source) (ids : List ObjectId) (walk : Walk) (graph : Graph)
    (result : Except Fault Unit × Walk × Graph) : Prop where
  grown : ∀ id, walk.Hidden id → result.2.1.Hidden id
  goes : result.1 = .ok () → ∀ rest last, Rounds source ⟨rest, result.2.1, result.2.2⟩ last →
    Rounds source ⟨ids ++ rest, walk, graph⟩ last
  fails : ∀ fault, result.1 = .error fault → ∀ rest,
    Rounds source ⟨ids ++ rest, walk, graph⟩ result

/-- A round that takes one commit and puts nothing in its place. -/
theorem Clears.of_round {id : ObjectId} {after : Walk} {kept : Graph}
    (grown : ∀ other, walk.Hidden other → after.Hidden other)
    (round : ∀ rest, Stack.round source ⟨id :: rest, walk, graph⟩ = .inr ⟨rest, after, kept⟩) :
    Clears source [id] walk graph (.ok (), after, kept) where
  grown := grown
  goes _ rest _ rounds := .more (round rest) rounds
  fails _ failed := by cases failed

/-- A fault that ends the loop. -/
theorem Clears.of_fault {fault : Fault} {after : Walk} {kept : Graph}
    (grown : ∀ other, walk.Hidden other → after.Hidden other)
    (fails : ∀ rest, Rounds source ⟨ids ++ rest, walk, graph⟩ (.error fault, after, kept)) :
    Clears source ids walk graph (.error fault, after, kept) where
  grown := grown
  goes succeeded := by cases succeeded
  fails _ _ := fails

/-- A commit that is hidden already is only taken from the stack. -/
theorem Clears.known {id : ObjectId} (most : Nat) (hidden : walk.Hidden id) :
    Clears source [id] walk graph (hideWithin source most id walk graph) := by
  have veiled : (walk.marksOf id).uninteresting = true := hidden
  rw [hideWithin_eq, if_pos veiled]
  refine .of_round (fun _ old => old) fun rest => ?_
  simp only [Stack.round, veiled, if_true]

/-- Commits that are taken one after another are taken together, as long as fewer identifiers are
left to be hidden than the bound says. -/
theorem eachOf_clears {step : ObjectId → Action Unit} (most : Nat)
    (each : ∀ id walk graph, ObjectId.unmarked walk.Hidden ≤ most →
      Clears source [id] walk graph (step id walk graph))
    (ids : List ObjectId) (walk : Walk) (graph : Graph)
    (enough : ObjectId.unmarked walk.Hidden ≤ most) :
    Clears source ids walk graph (eachOf step ids walk graph) := by
  induction ids generalizing walk graph with
  | nil => exact ⟨fun _ old => old, fun _ _ _ rounds => rounds, fun _ failed => by cases failed⟩
  | cons id ids inductionHypothesis =>
    have first := each id walk graph enough
    rw [eachOf_cons, Action.andThen]
    rcases ran : step id walk graph with ⟨fault | done, between, store⟩
    · rw [ran] at first
      exact .of_fault first.grown fun rest => first.fails fault rfl (ids ++ rest)
    · rw [ran] at first
      have stillEnough := (ObjectId.unmarked_mono _ _ first.grown).trans enough
      have later := inductionHypothesis between store stillEnough
      refine ⟨fun other old => later.grown other (first.grown other old), ?_, ?_⟩
      · intro succeeded rest last rounds
        exact first.goes rfl (ids ++ rest) last (later.goes succeeded rest last rounds)
      · intro fault failed rest
        exact first.goes rfl (ids ++ rest) _ (later.fails fault failed rest)

/-- A visited commit makes room for its parents. -/
theorem Clears.through {id : ObjectId} (most : Nat) (shown : ¬ walk.Hidden id)
    (visited : walk.Visited id)
    (parents : ∀ node store, Clears source node.parents.reverse
      (walk.hideOne id walk.interesting) store
      (hideParents source most node (walk.hideOne id walk.interesting) store)) :
    Clears source [id] walk graph (hideWithin source most id walk graph) := by
  have unhidden : ¬ (walk.marksOf id).uninteresting = true := shown
  have read : (walk.marksOf id).headerRead = true := visited
  have hides : ∀ other, walk.Hidden other → (walk.hideOne id walk.interesting).Hidden other :=
    fun other old => (hideOne_hidden id other walk.interesting).mpr (.inl old)
  rw [hideWithin_eq, if_neg unhidden, if_pos read, Action.andThen, fetch]
  rcases resolved : graph.resolve source id with ⟨fault | node, store⟩
  · refine .of_fault hides fun rest => .ended ?_
    simp only [List.cons_append, List.nil_append, Stack.round, unhidden, read, if_true, if_false,
      resolved, Bool.false_eq_true]
  · have round : ∀ rest, Stack.round source ⟨id :: rest, walk, graph⟩ =
        .inr ⟨node.parents.reverse ++ rest, walk.hideOne id walk.interesting, store⟩ := by
      intro rest
      simp only [Stack.round, unhidden, read, if_true, if_false, resolved, Bool.false_eq_true]
      rfl
    have later := parents node store
    refine ⟨fun other old => later.grown other (hides other old), ?_, ?_⟩
    · intro succeeded rest last rounds
      exact .more (round rest) (later.goes succeeded rest last rounds)
    · intro fault failed rest
      exact .more (round rest) (later.fails fault failed rest)

/-- Hiding one commit with what it leads to. The bound on the depth is enough as long as it is one
on the identifiers that are left to be hidden, since each step down hides another one. -/
theorem hideWithin_clears (most : Nat) (id : ObjectId) (walk : Walk) (graph : Graph)
    (enough : ObjectId.unmarked walk.Hidden ≤ most) :
    Clears source [id] walk graph (hideWithin source most id walk graph) := by
  induction most generalizing id walk graph with
  | zero =>
    have hidden : walk.Hidden id := by
      by_contra shown
      have left := ObjectId.unmarked_pos walk.Hidden id shown
      omega
    exact .known 0 hidden
  | succ most inductionHypothesis =>
    by_cases hidden : walk.Hidden id
    · exact .known (most + 1) hidden
    have fewer := hideOne_fewer id walk.interesting hidden
    by_cases visited : walk.Visited id
    · refine .through (most + 1) hidden visited fun node store => ?_
      exact eachOf_clears most inductionHypothesis node.parents.reverse _ store (by omega)
    have unhidden : ¬ (walk.marksOf id).uninteresting = true := hidden
    have unread : ¬ (walk.marksOf id).headerRead = true := visited
    rw [hideWithin_eq, if_neg unhidden, if_neg unread]
    have hides (interesting : Nat) (other : ObjectId) (old : walk.Hidden other) :
        (walk.hideOne id interesting).Hidden other :=
      (hideOne_hidden id other interesting).mpr (.inl old)
    by_cases discovered : (walk.marksOf id).discovered = true
    · have round (rest : List ObjectId) : Stack.round source ⟨id :: rest, walk, graph⟩ =
          .inr ⟨rest, walk.hideOne id (walk.interesting - 1), graph⟩ := by
        simp only [Stack.round, unhidden, unread, discovered, if_true, if_false,
          Bool.false_eq_true]
        rfl
      rw [if_pos discovered]
      exact .of_round (hides (walk.interesting - 1)) round
    · have round (rest : List ObjectId) : Stack.round source ⟨id :: rest, walk, graph⟩ =
          .inr ⟨rest, walk.hideOne id walk.interesting, graph⟩ := by
        simp only [Stack.round, unhidden, unread, discovered, if_false, Bool.false_eq_true]
        rfl
      rw [if_neg discovered]
      exact .of_round (hides walk.interesting) round

/-- From every stack the loop comes to what hiding its commits one after another comes to. -/
theorem rounds_eachOf (source : Source) (ids : List ObjectId) (walk : Walk) (graph : Graph) :
    Rounds source ⟨ids, walk, graph⟩ (eachOf (carryHidden source) ids walk graph) := by
  have clears : Clears source ids walk graph (eachOf (carryHidden source) ids walk graph) :=
    eachOf_clears ObjectId.total (hideWithin_clears ObjectId.total) ids walk graph
      (ObjectId.unmarked_le_total walk.Hidden)
  rcases ran : eachOf (carryHidden source) ids walk graph with ⟨fault | done, after, kept⟩
  · rw [ran] at clears
    simpa using clears.fails fault rfl []
  · rw [ran] at clears
    simpa using clears.goes rfl [] _ (.ended rfl)

/-- With one commit on the stack this is hiding the commit. -/
theorem rounds_carryHidden (source : Source) (id : ObjectId) (walk : Walk) (graph : Graph) :
    Rounds source ⟨[id], walk, graph⟩ (carryHidden source id walk graph) := by
  have single : eachOf (carryHidden source) [id] walk graph = carryHidden source id walk graph := by
    rw [eachOf_cons, Action.andThen]
    rcases carryHidden source id walk graph with ⟨fault | done, after, kept⟩ <;> rfl
  rw [← single]
  exact rounds_eachOf source [id] walk graph

/-- The loop has exactly one result from every stack. -/
theorem exists_rounds (source : Source) (stack : Stack) :
    ∃! result, Rounds source stack result :=
  ⟨_, rounds_eachOf source stack.waiting stack.walk stack.graph, fun _ again =>
    (rounds_eachOf source stack.waiting stack.walk stack.graph).unique again⟩

end Ancestry.Walk
