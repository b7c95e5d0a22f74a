import Ancestry.Filter
import Ancestry.Proofs.History

/-!
# Answers of filters

What a filter answers about a commit, and what it becomes, depends on the source alone: a
faithful graph saves reading but does not change the answer, and it stays faithful while
filters read through it.
-/

namespace Ancestry

namespace Graph

/-- A reading through a graph that any faithful graph answers alike. -/
def Steady {α : Type} (source : Source) (reading : Graph → α × Graph) : Prop :=
  ∃ answer, ∀ graph, graph.Faithful source →
    ∃ after, reading graph = (answer, after) ∧ after.Faithful source

/-- One steady reading after another, the second of which may depend on the first. -/
theorem Steady.andThen {α β ε : Type} {source : Source} {both : Graph → Except ε β × Graph}
    {first : Graph → Except ε α × Graph} {next : α → Graph → Except ε β × Graph}
    (steady : Steady source first) (rest : ∀ value, Steady source (next value))
    (fails : ∀ graph failure after, first graph = (.error failure, after) →
      both graph = (.error failure, after))
    (goes : ∀ graph value after, first graph = (.ok value, after) → both graph = next value after) :
    Steady source both := by
  obtain ⟨answer, settled⟩ := steady
  cases answer with
  | error failure =>
    refine ⟨.error failure, fun graph faithful => ?_⟩
    obtain ⟨after, answered, kept⟩ := settled graph faithful
    exact ⟨after, fails graph failure after answered, kept⟩
  | ok value =>
    obtain ⟨last, finished⟩ := rest value
    refine ⟨last, fun graph faithful => ?_⟩
    obtain ⟨between, answered, kept⟩ := settled graph faithful
    obtain ⟨after, done, kept⟩ := finished between kept
    exact ⟨after, (goes graph value between answered).trans done, kept⟩

end Graph

namespace Pickaxe

/-- Comparing with one parent after another. The trees are read from the source itself, so
that the graph matters only for the parents' headers. -/
theorem anyParentDiffers_steady (source : Source) (needle : Needle) (tree : ObjectId)
    (parents : List ObjectId) :
    Graph.Steady source (anyParentDiffers source needle tree parents) := by
  induction parents with
  | nil => exact ⟨.ok false, fun graph faithful => ⟨graph, rfl, faithful⟩⟩
  | cons parent rest inductionHypothesis =>
    obtain ⟨answer, settled⟩ := inductionHypothesis
    cases resolved : source.node parent with
    | error fault =>
      refine ⟨.error fault, fun graph faithful => ?_⟩
      obtain ⟨after, answered, kept⟩ := faithful.resolve parent
      exact ⟨after, by simp [anyParentDiffers, answered, resolved], kept⟩
    | ok node =>
      cases differs : treesDiffer source needle (some node.tree) tree with
      | error fault =>
        refine ⟨.error fault, fun graph faithful => ?_⟩
        obtain ⟨after, answered, kept⟩ := faithful.resolve parent
        exact ⟨after, by simp [anyParentDiffers, answered, resolved, differs], kept⟩
      | ok found =>
        cases found with
        | true =>
          refine ⟨.ok true, fun graph faithful => ?_⟩
          obtain ⟨after, answered, kept⟩ := faithful.resolve parent
          exact ⟨after, by simp [anyParentDiffers, answered, resolved, differs], kept⟩
        | false =>
          refine ⟨answer, fun graph faithful => ?_⟩
          obtain ⟨between, answered, kept⟩ := faithful.resolve parent
          obtain ⟨after, finished, kept⟩ := settled between kept
          exact ⟨after, by simp [anyParentDiffers, answered, resolved, differs, finished], kept⟩

/-- Whether a commit touches a needle does not depend on what a graph has read. -/
theorem touches_steady (source : Source) (needle : Needle) (node : Node) :
    Graph.Steady source fun graph => touches source needle graph node := by
  cases root : node.isRoot with
  | true =>
    exact ⟨treesDiffer source needle none node.tree, fun graph faithful =>
      ⟨graph, by simp [touches, root], faithful⟩⟩
  | false =>
    obtain ⟨answer, settled⟩ := anyParentDiffers_steady source needle node.tree node.parents
    refine ⟨answer, fun graph faithful => ?_⟩
    obtain ⟨after, finished, kept⟩ := settled graph faithful
    exact ⟨after, by simpa [touches, root] using finished, kept⟩

end Pickaxe

namespace Outcome

/-- What a disjunction makes of its sides where the left one does not include the commit. -/
def orElse (first second : Outcome) : Outcome :=
  if second = .include then .include
  else if first.isStop && second.isStop then .stop else .exclude

/-- Where the left side of a disjunction does not include a commit the right one decides whether it
is included. -/
theorem orElse_eq_include (first second : Outcome) :
    first.orElse second = .include ↔ second = .include := by
  cases first <;> cases second <;> decide

/-- A disjunction stops a pass only where both of its sides do. -/
theorem orElse_eq_stop (first second : Outcome) :
    first.orElse second = .stop ↔ first = .stop ∧ second = .stop := by
  cases first <;> cases second <;> decide

end Outcome

namespace Filter

section parts

variable {source : Source} {node : Node} {graph between after : Graph} {next other : Filter}
  {result : Except Fault Outcome}

-- The equations of the large match are derived here once; the proofs below only look them up.
attribute [local simp] judge

/-- A negation turns the answer of its part around, and hands on its faults. -/
theorem judge_negation {inner : Filter}
    (asked : inner.judge source node graph = (result, next, between)) :
    (negation inner).judge source node graph =
      (result.map Outcome.opposite, .negation next, between) := by
  rw [judge, asked]

/-- A conjunction whose left side includes the commit answers as its right side. -/
theorem judge_both_included {left right : Filter}
    (asked : left.judge source node graph = (.ok .include, next, between))
    (again : right.judge source node between = (result, other, after)) :
    (both left right).judge source node graph = (result, .both next other, after) := by
  rw [judge, asked]
  simp only [again]

/-- Otherwise it answers as its left side, and the right side is not asked. -/
theorem judge_both_decided {left right : Filter}
    (asked : left.judge source node graph = (result, next, between))
    (decided : result ≠ .ok .include) :
    (both left right).judge source node graph = (result, .both next right, between) := by
  rw [judge, asked]
  split
  · rename_i included
    exact absurd (Prod.mk.inj included).1 decided
  · rename_i same
    cases same
    rfl

/-- A disjunction whose left side includes the commit or fails does not ask its right side. -/
theorem judge_oneOf_included {left right : Filter}
    (asked : left.judge source node graph = (.ok .include, next, between)) :
    (oneOf left right).judge source node graph = (.ok .include, .oneOf next right, between) := by
  rw [judge, asked]

/-- Where the first part of a disjunction fails the second is not asked. -/
theorem judge_oneOf_failed {left right : Filter} {fault : Fault}
    (asked : left.judge source node graph = (.error fault, next, between)) :
    (oneOf left right).judge source node graph = (.error fault, .oneOf next right, between) := by
  rw [judge, asked]

/-- Otherwise the answers of both sides count. -/
theorem judge_oneOf_excluded {left right : Filter} {outcome : Outcome}
    (asked : left.judge source node graph = (.ok outcome, next, between))
    (excluded : outcome ≠ .include)
    (again : right.judge source node between = (result, other, after)) :
    (oneOf left right).judge source node graph =
      (result.map outcome.orElse, .oneOf next other, after) := by
  rcases result with fault | second
  · cases outcome <;> simp_all [Except.map]
  · cases outcome <;> cases second <;> simp_all [Except.map, Outcome.orElse]

end parts

/-- What a filter decides about a node and what it becomes, read from the source. -/
def answer (source : Source) (node : Node) (filter : Filter) : Except Fault Outcome × Filter :=
  ((filter.judge source node {}).1, (filter.judge source node {}).2.1)

/-- The filter decides and goes on as said, through whatever faithful graph it reads. -/
def Answers (source : Source) (node : Node) (filter : Filter) (result : Except Fault Outcome)
    (next : Filter) : Prop :=
  ∀ graph, graph.Faithful source →
    ∃ after, filter.judge source node graph = (result, next, after) ∧ after.Faithful source

/-- Every filter has one answer for all faithful graphs. A filter with parts asks them one
after another, the second through the graph that the first one leaves. -/
theorem exists_answers (source : Source) (node : Node) (filter : Filter) :
    ∃ result next, filter.Answers source node result next := by
  induction filter with
  | everything => exact ⟨_, _, fun graph faithful => ⟨graph, rfl, faithful⟩⟩
  | nothing => exact ⟨_, _, fun graph faithful => ⟨graph, rfl, faithful⟩⟩
  | noMerges => exact ⟨_, _, fun graph faithful => ⟨graph, rfl, faithful⟩⟩
  | window bounds => exact ⟨_, _, fun graph faithful => ⟨graph, rfl, faithful⟩⟩
  | atMost limit seen =>
    by_cases full : limit ≤ seen
    · exact ⟨_, _, fun graph faithful => ⟨graph, by rw [judge, if_pos full], faithful⟩⟩
    · exact ⟨_, _, fun graph faithful => ⟨graph, by rw [judge, if_neg full], faithful⟩⟩
  | skip count seen =>
    by_cases early : seen < count
    · exact ⟨_, _, fun graph faithful => ⟨graph, by rw [judge, if_pos early], faithful⟩⟩
    · exact ⟨_, _, fun graph faithful => ⟨graph, by rw [judge, if_neg early], faithful⟩⟩
  | message search =>
    refine ⟨(source.message node.id).map fun text => .ofBool (search.isIn text), .message search,
      fun graph faithful => ?_⟩
    obtain ⟨after, answered, kept⟩ := faithful.message node
    exact ⟨after, by rw [judge, answered], kept⟩
  | occurrences needle =>
    obtain ⟨found, settled⟩ := Pickaxe.touches_steady source needle node
    refine ⟨found.map Outcome.ofBool, .occurrences needle, fun graph faithful => ?_⟩
    obtain ⟨after, answered, kept⟩ := settled graph faithful
    change Pickaxe.touches source needle graph node = (found, after) at answered
    exact ⟨after, by rw [judge, answered], kept⟩
  | negation inner inductionHypothesis =>
    obtain ⟨result, next, settled⟩ := inductionHypothesis
    refine ⟨result.map Outcome.opposite, .negation next, fun graph faithful => ?_⟩
    obtain ⟨after, answered, kept⟩ := settled graph faithful
    exact ⟨after, by rw [judge, answered], kept⟩
  | both left right leftSteady rightSteady =>
    obtain ⟨first, nextLeft, settledLeft⟩ := leftSteady
    obtain ⟨second, nextRight, settledRight⟩ := rightSteady
    by_cases included : first = .ok .include
    · refine ⟨second, .both nextLeft nextRight, fun graph faithful => ?_⟩
      obtain ⟨between, answered, kept⟩ := settledLeft graph faithful
      obtain ⟨after, decided, kept⟩ := settledRight between kept
      exact ⟨after, judge_both_included (included ▸ answered) decided, kept⟩
    · refine ⟨first, .both nextLeft right, fun graph faithful => ?_⟩
      obtain ⟨after, answered, kept⟩ := settledLeft graph faithful
      exact ⟨after, judge_both_decided answered included, kept⟩
  | oneOf left right leftSteady rightSteady =>
    obtain ⟨first, nextLeft, settledLeft⟩ := leftSteady
    obtain ⟨second, nextRight, settledRight⟩ := rightSteady
    cases first with
    | error fault =>
      refine ⟨.error fault, .oneOf nextLeft right, fun graph faithful => ?_⟩
      obtain ⟨after, answered, kept⟩ := settledLeft graph faithful
      exact ⟨after, judge_oneOf_failed answered, kept⟩
    | ok outcome =>
      by_cases included : outcome = .include
      · refine ⟨.ok .include, .oneOf nextLeft right, fun graph faithful => ?_⟩
        obtain ⟨after, answered, kept⟩ := settledLeft graph faithful
        exact ⟨after, judge_oneOf_included (included ▸ answered), kept⟩
      · refine ⟨second.map outcome.orElse, .oneOf nextLeft nextRight, fun graph faithful => ?_⟩
        obtain ⟨between, answered, kept⟩ := settledLeft graph faithful
        obtain ⟨after, decided, kept⟩ := settledRight between kept
        exact ⟨after, judge_oneOf_excluded answered included decided, kept⟩

/-- The answer is what is read from the source. -/
theorem judge_answer (source : Source) (node : Node) (filter : Filter) :
    filter.Answers source node (filter.answer source node).1 (filter.answer source node).2 := by
  obtain ⟨result, next, settled⟩ := exists_answers source node filter
  obtain ⟨after, answered, _⟩ := settled {} (Graph.faithful_empty source)
  simpa only [answer, answered] using settled

/-- What a filter leaves of some commits and of the ending after them, when it is asked
about one after another: it may end the sequence early, cleanly or with a fault. -/
def select (source : Source) (ending : Option Fault) :
    Filter → List Node → List Node × Option Fault
  | _, [] => ([], ending)
  | filter, node :: rest =>
    match filter.answer source node with
    | (.error fault, _) => ([], some fault)
    | (.ok .stop, _) => ([], none)
    | (.ok .exclude, next) => select source ending next rest
    | (.ok .include, next) =>
      (node :: (select source ending next rest).1, (select source ending next rest).2)

variable {source : Source} {ending : Option Fault}

/-- The filter that includes everything changes nothing. -/
theorem select_everything (nodes : List Node) :
    select source ending .everything nodes = (nodes, ending) := by
  induction nodes with
  | nil => rfl
  | cons node rest inductionHypothesis =>
    have included : Filter.answer source node .everything = (.ok .include, .everything) := rfl
    simp only [select, included, inductionHypothesis]

end Filter

end Ancestry
