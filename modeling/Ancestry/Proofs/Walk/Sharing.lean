import Ancestry.Proofs.Walk.Steadiness

/-!
# Walks over one graph

Walks that read through one graph do not notice one another. However their operations are
interleaved, each walk replies as it does when its own operations are done alone over a new
graph, and it is the same walk afterwards; what differs is only how much is read from the
source. The graph never holds anything but what the source answers.
-/

namespace Ancestry.Walk

variable {ι : Type} [DecidableEq ι] {source : Source} {graph : Graph}

/-- The operations of several walks over one graph, in the sequence in which they are done. -/
def together (source : Source) :
    List (ι × Operation) → (ι → Walk) → Graph → List (ι × Reply) × (ι → Walk) × Graph
  | [], walks, graph => ([], walks, graph)
  | (one, operation) :: rest, walks, graph =>
    match perform source operation (walks one) graph with
    | (reply, after, graph) =>
      match together source rest (Function.update walks one after) graph with
      | (replies, walks, graph) => ((one, reply) :: replies, walks, graph)

/-- What concerns one of the walks. -/
def concerning {α : Type} (one : ι) (all : List (ι × α)) : List α :=
  all.filterMap fun entry => if entry.1 = one then some entry.2 else none

/-- The first entry concerns the walk that it names. -/
theorem concerning_same {α : Type} (one : ι) (first : α) (rest : List (ι × α)) :
    concerning one ((one, first) :: rest) = first :: concerning one rest := by
  simp [concerning]

/-- What concerns another walk is left out. -/
theorem concerning_other {α : Type} {one other : ι} (first : α) (rest : List (ι × α))
    (apart : other ≠ one) : concerning one ((other, first) :: rest) = concerning one rest := by
  simp [concerning, apart]

/-- Each walk replies as if it were alone over any faithful graph. One operation changes the
graph for all walks, but it changes none of the others, and what it reads tells them nothing
that the source would not. -/
theorem together_alone (operations : List (ι × Operation)) (walks : ι → Walk)
    (faithful : graph.Faithful source) :
    ∃ replies lasts kept, together source operations walks graph = (replies, lasts, kept) ∧
      kept.Faithful source ∧ ∀ one alone, alone.Faithful source →
        ∃ last, session source (concerning one operations) (walks one) alone =
          (concerning one replies, lasts one, last) ∧ last.Faithful source := by
  induction operations generalizing walks graph with
  | nil => exact ⟨[], walks, graph, rfl, faithful, fun _ alone faithful => ⟨alone, rfl, faithful⟩⟩
  | cons entry rest inductionHypothesis =>
    obtain ⟨mover, operation⟩ := entry
    obtain ⟨reply, after, _, settled⟩ := perform_replies source operation (walks mover)
    obtain ⟨store, ran, faithful⟩ := settled graph faithful
    obtain ⟨replies, lasts, kept, finished, faithful, each⟩ :=
      inductionHypothesis (Function.update walks mover after) faithful
    refine ⟨(mover, reply) :: replies, lasts, kept, by simp only [together, ran, finished],
      faithful, ?_⟩
    intro one alone aloneFaithful
    -- The walk that moved goes on alone from its first operation, the others from where they were.
    by_cases moved : mover = one
    · subst moved
      obtain ⟨between, first, betweenFaithful⟩ := settled alone aloneFaithful
      obtain ⟨last, later, lastFaithful⟩ := each mover between betweenFaithful
      rw [Function.update_self] at later
      refine ⟨last, ?_, lastFaithful⟩
      rw [concerning_same, concerning_same]
      simp only [session, first, later]
    · obtain ⟨last, later, lastFaithful⟩ := each one alone aloneFaithful
      rw [Function.update_of_ne (Ne.symm moved)] at later
      refine ⟨last, ?_, lastFaithful⟩
      rw [concerning_other operation rest moved, concerning_other reply replies moved]
      exact later

/-- Walks over one graph are apart. However the operations of any walks are interleaved, each
walk has the replies that it has when its own operations are done alone over a new graph, and
is the same walk in the end. Whatever the graph has kept is what the source answers.

Proof: by induction on the operations, with any faithful graph in place of the new one: an operation
moves one walk, and adds to the graph what the source says. -/
theorem walks_apart (source : Source) (operations : List (ι × Operation)) (walks : ι → Walk) :
    ∃ replies lasts kept, together source operations walks {} = (replies, lasts, kept) ∧
      kept.Faithful source ∧ ∀ one, ∃ alone,
        session source (concerning one operations) (walks one) {} =
          (concerning one replies, lasts one, alone) ∧ alone.Faithful source := by
  obtain ⟨replies, lasts, kept, ran, faithful, each⟩ :=
    together_alone operations walks (Graph.faithful_empty source)
  exact ⟨replies, lasts, kept, ran, faithful, fun one =>
    each one {} (Graph.faithful_empty source)⟩

end Ancestry.Walk
