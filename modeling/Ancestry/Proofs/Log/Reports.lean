import Ancestry.Log.Basic
import Ancestry.Proofs.Identifiers
import Ancestry.Proofs.Walk.Passes

/-!
# Reports of a log

A log prints what the pass of its walk gives, one entry after another, until a commit
cannot be read in full or the pass ends.
-/

namespace Ancestry

/-- A commit that is read in full has a header. -/
theorem Source.resolves_of_commit {source : Source} {id : ObjectId} {commit : Commit}
    (read : source.commit id = .ok commit) : source.Resolves id := by
  cases payload : source.payloadOf .commit id with
  | error fault => simp [Source.commit, readCommit, payload] at read
  | ok bytes =>
    cases parsed : CommitHeader.parse bytes with
    | error fault =>
      simp [Source.commit, readCommit, payload, Commit.parse, parsed, Except.mapError] at read
    | ok header =>
      exact ⟨⟨id, header⟩, by
        simp [Source.node, Source.header, readCommit, payload, parsed, Except.mapError, Except.map]⟩

namespace Log

variable {source : Source} {walk after : Walk} {graph kept : Graph} {given : List Node}
  {ending : Option Fault}

/-- The report of printing some commits and then ending, cleanly or with a fault. -/
def reportOf (source : Source) (options : LogOptions) (coloured : Bool) (ending : Option Fault) :
    (first : Bool) → List Node → Report
  | _, [] => { failure := ending.map .fault }
  | first, node :: rest =>
    match source.commit node.id with
    | .error fault => (Report.failed (.fault fault)).after (separator options first)
    | .ok commit =>
      (reportOf source options coloured ending false rest).after
        (separator options first ++ entry options coloured node.id commit)

/-- Printing a pass gives the report of what the pass gives. -/
theorem printWithin_pass (options : LogOptions) (coloured first : Bool) (most : Nat)
    (pass : Walk.Pass source walk graph given ending after kept) (enough : given.length ≤ most) :
    ∃ left, printWithin source options coloured most first walk graph =
      (reportOf source options coloured ending first given, left) := by
  induction pass generalizing most first with
  | ended ran => exact ⟨_, by rw [printWithin, ran]; rfl⟩
  | failed ran => exact ⟨_, by rw [printWithin, ran]; rfl⟩
  | @gave walk between after graph kept last node rest ending ran pass inductionHypothesis =>
    cases most with
    | zero => simp at enough
    | succ most =>
      cases read : source.commit node.id with
      | error fault =>
        exact ⟨kept, by simp only [printWithin, ran, read, reportOf]⟩
      | ok commit =>
        obtain ⟨left, printed⟩ :=
          inductionHypothesis false most (by simpa using Nat.le_of_succ_le_succ enough)
        exact ⟨left, by simp only [printWithin, ran, read, printed, reportOf]⟩

/-- Where every commit can be read, all are printed and the report ends as the pass. -/
theorem reportOf_readable (options : LogOptions) (coloured first : Bool) (given : List Node)
    (readable : ∀ node ∈ given, ∃ commit, source.commit node.id = .ok commit) :
    (reportOf source options coloured ending first given).failure = ending.map .fault ∧
      (reportOf source options coloured ending first given).printed.length = given.length := by
  induction given generalizing first with
  | nil => exact ⟨rfl, rfl⟩
  | cons node rest inductionHypothesis =>
    obtain ⟨commit, read⟩ := readable node List.mem_cons_self
    have others : ∀ other ∈ rest, ∃ commit, source.commit other.id = .ok commit :=
      fun other member => readable other (List.mem_cons_of_mem node member)
    obtain ⟨failure, printed⟩ := inductionHypothesis false others
    simp only [reportOf, read, Report.after]
    exact ⟨failure, by rw [List.length_cons, List.length_cons, printed]⟩

end Log

end Ancestry
