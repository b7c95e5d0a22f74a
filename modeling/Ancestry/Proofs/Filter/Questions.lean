import Ancestry.Proofs.Stops

/-!
# Questions to filters

A filter is asked about one commit after another, each time from whatever source and graph
there are. Its answers depend on what it has counted. Whether a question is answered or fails,
in which part it fails and which parts it does not reach, it changes nothing of a filter but
what its counting parts have seen. So the filter can be had back as it was built: it is the
only one with the same parts that has counted nothing.
-/

namespace Ancestry

/-- A question about a commit, and what it is answered from. -/
structure Question where
  source : Source
  graph : Graph
  node : Node

namespace Filter

/-- The answer to a question, and the graph that is left. -/
def reply (filter : Filter) (question : Question) : Except Fault Outcome × Graph :=
  ((filter.judge question.source question.node question.graph).1,
    (filter.judge question.source question.node question.graph).2.2)

/-- The filter that is asked next. -/
def following (filter : Filter) (question : Question) : Filter :=
  (filter.judge question.source question.node question.graph).2.1

/-- The answers to one question after another. -/
def replies : Filter → List Question → List (Except Fault Outcome × Graph)
  | _, [] => []
  | filter, question :: rest => filter.reply question :: replies (filter.following question) rest

/-- What is left of a filter after some questions. -/
def after (filter : Filter) (questions : List Question) : Filter := questions.foldl following filter

/-- Filters that are related, where related filters answer alike and stay related, have the
same answers to any questions. -/
theorem replies_of_related (related : Filter → Filter → Prop)
    (keeps : ∀ left right question, related left right →
      left.reply question = right.reply question ∧
        related (left.following question) (right.following question))
    {left right : Filter} (same : related left right) (questions : List Question) :
    left.replies questions = right.replies questions := by
  induction questions generalizing left right with
  | nil => rfl
  | cons question rest inductionHypothesis =>
    obtain ⟨answers, stays⟩ := keeps left right question same
    rw [replies, replies, answers, inductionHypothesis stays]

/-- Filters with the same parts, down to their patterns and bounds. They may have counted
differently. -/
inductive Counterpart : Filter → Filter → Prop where
  | everything : Counterpart .everything .everything
  | nothing : Counterpart .nothing .nothing
  | negation {inner other : Filter} (same : Counterpart inner other) :
      Counterpart (.negation inner) (.negation other)
  | both {left right other another : Filter} (first : Counterpart left other)
      (second : Counterpart right another) : Counterpart (.both left right) (.both other another)
  | oneOf {left right other another : Filter} (first : Counterpart left other)
      (second : Counterpart right another) : Counterpart (.oneOf left right) (.oneOf other another)
  | noMerges : Counterpart .noMerges .noMerges
  | window (bounds : Window) : Counterpart (.window bounds) (.window bounds)
  | message (search : MessageSearch) : Counterpart (.message search) (.message search)
  | occurrences (needle : Needle) : Counterpart (.occurrences needle) (.occurrences needle)
  | atMost (limit seen other : Nat) : Counterpart (.atMost limit seen) (.atMost limit other)
  | skip (count seen other : Nat) : Counterpart (.skip count seen) (.skip count other)

/-- No part has counted a commit. -/
def Unasked : Filter → Prop
  | .negation inner => inner.Unasked
  | .both left right => left.Unasked ∧ right.Unasked
  | .oneOf left right => left.Unasked ∧ right.Unasked
  | .atMost _ seen => seen = 0
  | .skip _ seen => seen = 0
  | _ => True

/-- A filter has the parts of its fresh form. -/
theorem fresh_counterpart (filter : Filter) : Counterpart filter.fresh filter := by
  induction filter with
  | everything => exact .everything
  | nothing => exact .nothing
  | negation inner same => exact .negation same
  | both left right first second => exact .both first second
  | oneOf left right first second => exact .oneOf first second
  | noMerges => exact .noMerges
  | window bounds => exact .window bounds
  | message search => exact .message search
  | occurrences needle => exact .occurrences needle
  | atMost limit seen => exact .atMost limit 0 seen
  | skip count seen => exact .skip count 0 seen

/-- In its fresh form no part has counted a commit. -/
theorem unasked_fresh (filter : Filter) : filter.fresh.Unasked := by
  induction filter with
  | negation inner inductionHypothesis => exact inductionHypothesis
  | both left right first second => exact ⟨first, second⟩
  | oneOf left right first second => exact ⟨first, second⟩
  | atMost limit seen => rfl
  | skip count seen => rfl
  | _ => trivial

/-- Counterparts are the same when their counters are taken back. -/
theorem Counterpart.fresh_eq {left right : Filter} (same : Counterpart left right) :
    left.fresh = right.fresh := by
  induction same with
  | negation same inductionHypothesis => rw [fresh, fresh, inductionHypothesis]
  | both first second firstSame secondSame => rw [fresh, fresh, firstSame, secondSame]
  | oneOf first second firstSame secondSame => rw [fresh, fresh, firstSame, secondSame]
  | _ => rfl

/-- Filters with one fresh form have the same parts. -/
theorem counterpart_of_fresh {filter other : Filter} (same : filter.fresh = other.fresh) :
    Counterpart filter other := by
  induction filter generalizing other with
  | negation inner inductionHypothesis =>
    cases other with
    | negation another => exact .negation (inductionHypothesis (negation.inj same))
    | _ => cases same
  | both left right leftSame rightSame =>
    cases other with
    | both first second =>
      obtain ⟨sameLeft, sameRight⟩ := both.inj same
      exact .both (leftSame sameLeft) (rightSame sameRight)
    | _ => cases same
  | oneOf left right leftSame rightSame =>
    cases other with
    | oneOf first second =>
      obtain ⟨sameLeft, sameRight⟩ := oneOf.inj same
      exact .oneOf (leftSame sameLeft) (rightSame sameRight)
    | _ => cases same
  | atMost limit seen =>
    cases other with
    | atMost bound another =>
      obtain ⟨rfl, _⟩ := atMost.inj same
      exact .atMost limit seen another
    | _ => cases same
  | skip count seen =>
    cases other with
    | skip bound another =>
      obtain ⟨rfl, _⟩ := skip.inj same
      exact .skip count seen another
    | _ => cases same
  -- A filter without parts and counters is its own fresh form.
  | _ =>
    have parts : Counterpart other.fresh other := fresh_counterpart other
    rw [← same] at parts
    exact parts

/-- Filters have the same parts exactly if they are the same without their counters. -/
theorem counterpart_iff {filter other : Filter} :
    Counterpart filter other ↔ filter.fresh = other.fresh := by
  constructor
  · intro same
    exact same.fresh_eq
  · intro same
    exact counterpart_of_fresh same

/-- Where nothing was counted there is nothing to take back. -/
theorem Unasked.fresh_eq {filter : Filter} (unasked : filter.Unasked) : filter.fresh = filter := by
  induction filter with
  | negation inner inductionHypothesis => rw [fresh, inductionHypothesis unasked]
  | both left right first second => rw [fresh, first unasked.1, second unasked.2]
  | oneOf left right first second => rw [fresh, first unasked.1, second unasked.2]
  | atMost limit seen =>
    obtain rfl : seen = 0 := unasked
    rfl
  | skip count seen =>
    obtain rfl : seen = 0 := unasked
    rfl
  | _ => rfl

/-- The text of a filter does not tell what it has counted. -/
theorem display_fresh (filter : Filter) : filter.fresh.display = filter.display := by
  induction filter with
  | negation inner inductionHypothesis => rw [fresh, display, display, inductionHypothesis]
  | both left right first second => rw [fresh, display, display, first, second]
  | oneOf left right first second => rw [fresh, display, display, first, second]
  | _ => rfl

/-- Whether a filter needs messages is not a matter of counters. -/
theorem needsMessage_fresh (filter : Filter) : filter.fresh.needsMessage = filter.needsMessage := by
  induction filter with
  | negation inner inductionHypothesis =>
    rw [fresh, needsMessage, needsMessage, inductionHypothesis]
  | both left right first second => rw [fresh, needsMessage, needsMessage, first, second]
  | oneOf left right first second => rw [fresh, needsMessage, needsMessage, first, second]
  | _ => rfl

/-- Whatever was asked, taking the counters back gives the same filter. -/
theorem fresh_after (filter : Filter) (questions : List Question) :
    (filter.after questions).fresh = filter.fresh := by
  induction questions generalizing filter with
  | nil => rfl
  | cons question rest inductionHypothesis =>
    have step : (filter.following question).fresh = filter.fresh :=
      judge_fresh question.source question.node filter question.graph
    exact (inductionHypothesis (filter.following question)).trans step

/-- Any filter after any questions, some of which may have failed. With its counters taken back
it is what it would have been before: it has the same parts and has counted nothing, it has the
same text and needs messages where it did, and it answers all questions as the filter with these
parts that is built afresh.

Proof: a question changes counters only, and the fresh form of a filter is what it is but for its
counters. Two filters with the same parts have one fresh form. -/
theorem renewed_as_built (filter : Filter) (questions : List Question) :
    (filter.after questions).fresh = filter.fresh ∧
      Counterpart filter filter.fresh ∧ filter.fresh.Unasked ∧
      (filter.after questions).fresh.display = filter.display ∧
      (filter.after questions).fresh.needsMessage = filter.needsMessage ∧
      ∀ built : Filter, Counterpart filter built → built.Unasked →
        (filter.after questions).fresh = built ∧
          ∀ later, (filter.after questions).fresh.replies later = built.replies later := by
  rw [fresh_after]
  refine ⟨rfl, counterpart_iff.mpr (fresh_fresh filter).symm, unasked_fresh filter,
    display_fresh filter, needsMessage_fresh filter, ?_⟩
  intro built same unasked
  have rebuilt : filter.fresh = built := same.fresh_eq.trans unasked.fresh_eq
  rw [rebuilt]
  exact ⟨rfl, fun later => rfl⟩

/-- At most two commits that touch a letter. -/
def lettered (seen : Nat) : Filter := .both (.atMost 2 seen) (.occurrences (.literal "a"))

/-- A question about a root commit whose tree is missing. -/
def treeless : Question where
  source := ⟨fun id => .error (.objectMissing id)⟩
  graph := {}
  node := ⟨.zero, .zero, [], 0⟩

/-- The question is counted and then fails. The filter is had back as it was built. -/
theorem renewed_as_built_lettered :
    (lettered 1).reply treeless = (.error (.objectMissing .zero), {}) ∧
      (lettered 1).after [treeless] = lettered 2 ∧
      ((lettered 1).after [treeless]).fresh = lettered 0 ∧
      ∀ later,
        ((lettered 1).after [treeless]).fresh.replies later = (lettered 0).replies later := by
  obtain ⟨_, _, _, _, _, rebuilt⟩ := renewed_as_built (lettered 1) [treeless]
  have parts : Counterpart (lettered 1) (lettered 0) := .both (.atMost 2 1 0) (.occurrences _)
  exact ⟨rfl, rfl, rebuilt (lettered 0) parts ⟨rfl, trivial⟩⟩

end Filter

end Ancestry
