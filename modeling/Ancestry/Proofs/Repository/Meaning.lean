import Ancestry.Proofs.Answers
import Ancestry.Repository.Resolution

/-!
# What revisions mean

Resolving a revision reads commits on the way to it, and so does everything else that
shares the graph. The commit that a revision names does not depend on what was read
before.
-/

namespace Ancestry

namespace Repository

variable {repository : Repository} {graph : Graph}

/-- The first parent is the same for all faithful graphs. -/
theorem firstParent_steady (source : Source) (sought : Revision) (id : ObjectId) :
    Graph.Steady source (firstParent source sought id) := by
  cases resolved : source.node id with
  | error fault =>
    refine ⟨.error (.fault fault), fun graph faithful => ?_⟩
    obtain ⟨after, answered, kept⟩ := faithful.resolve id
    exact ⟨after, by simp only [firstParent, answered, resolved], kept⟩
  | ok node =>
    cases parents : node.parents with
    | nil =>
      refine ⟨.error (.fault (.unknownRevision sought.display)), fun graph faithful => ?_⟩
      obtain ⟨after, answered, kept⟩ := faithful.resolve id
      exact ⟨after, by simp only [firstParent, answered, resolved, parents], kept⟩
    | cons parent rest =>
      refine ⟨.ok parent, fun graph faithful => ?_⟩
      obtain ⟨after, answered, kept⟩ := faithful.resolve id
      exact ⟨after, by simp only [firstParent, answered, resolved, parents], kept⟩

/-- So are first parents of first parents. -/
theorem generationsBack_steady (source : Source) (sought : Revision) (generations : Nat)
    (id : ObjectId) : Graph.Steady source (generationsBack source sought generations id) := by
  induction generations generalizing id with
  | zero => exact ⟨.ok id, fun graph faithful => ⟨graph, rfl, faithful⟩⟩
  | succ generations inductionHypothesis =>
    exact (firstParent_steady source sought id).andThen inductionHypothesis
      (fun _ _ _ ran => by rw [generationsBack, ran]) fun _ _ _ ran => by rw [generationsBack, ran]

/-- A revision names one commit whatever has been read before. -/
theorem resolve_steady (repository : Repository) (revision : Revision) :
    Graph.Steady repository.source (repository.resolve revision) := by
  induction revision with
  | name branch =>
    exact ⟨repository.resolveName branch, fun graph faithful => ⟨graph, rfl, faithful⟩⟩
  | parent base inductionHypothesis =>
    exact inductionHypothesis.andThen
      (fun id => firstParent_steady repository.source (.parent base) id)
      (fun _ _ _ ran => by rw [resolve, ran]) fun _ _ _ ran => by rw [resolve, ran]
  | ancestor base generations inductionHypothesis =>
    exact inductionHypothesis.andThen
      (fun id =>
        generationsBack_steady repository.source (.ancestor base generations) generations id)
      (fun _ _ _ ran => by rw [resolve, ran]) fun _ _ _ ran => by rw [resolve, ran]

/-- The commit that a revision names. -/
def meaning (repository : Repository) (revision : Revision) : Except Failure ObjectId :=
  (repository.resolve revision {}).1

/-- A revision is resolved to what it means, whatever a faithful graph has read: the reading is
steady, so that every such graph gives the answer of the empty one. -/
theorem resolve_meaning (revision : Revision) (faithful : graph.Faithful repository.source) :
    ∃ after, repository.resolve revision graph = (repository.meaning revision, after) ∧
      after.Faithful repository.source := by
  obtain ⟨answer, settled⟩ := repository.resolve_steady revision
  obtain ⟨_, answered, _⟩ := settled {} (Graph.faithful_empty repository.source)
  rw [meaning, answered]
  exact settled graph faithful

end Repository

end Ancestry
