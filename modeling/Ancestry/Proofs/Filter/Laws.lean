import Ancestry.Proofs.Filter.Questions

/-!
# Laws of filters

Conjunctions and disjunctions of filters may be grouped in any way, a negation may be moved
into either of them, which makes it the other one, and the negation of a limit leaves out
what the limit takes. These laws hold of filters that count as well: both sides of a law ask
the same parts the same questions, in the same sequence and through the same graphs. So after
any question, and after any number of them, the parts have counted the same on both sides.
-/

namespace Ancestry

namespace Outcome

/-- In either grouping of three sides the outcome is the same. -/
theorem orElse_assoc (first second third : Outcome) :
    (first.orElse second).orElse third = first.orElse (second.orElse third) := by
  cases first <;> cases second <;> cases third <;> decide

/-- The opposite of what a disjunction makes of two sides is decided by the second, if the first
one excludes. -/
theorem opposite_orElse (first second : Outcome) :
    (first.orElse second).opposite = second.opposite := by
  cases first <;> cases second <;> decide

/-- An excluding side does not change what an opposite says, as opposites do not stop. -/
theorem exclude_orElse_opposite (outcome : Outcome) :
    exclude.orElse outcome.opposite = outcome.opposite := by
  cases outcome <;> decide

/-- Outcomes that two functions turn into what a third one does. A fault stays as it is. -/
theorem map_map_eq {first second whole : Outcome → Outcome}
    (same : ∀ outcome, second (first outcome) = whole outcome) (result : Except Fault Outcome) :
    (result.map first).map second = result.map whole := by
  cases result with
  | error fault => rfl
  | ok outcome => exact congrArg Except.ok (same outcome)

/-- The opposite lets through what was not let through. -/
theorem opposite_eq_include (outcome : Outcome) :
    outcome.opposite = .include ↔ outcome ≠ .include := by
  cases outcome <;> decide

end Outcome

namespace Filter

/-- Two filters that are told apart only by how they are put together. -/
inductive Law : Filter → Filter → Prop where
  | bothAssoc (first second third : Filter) :
      Law (.both (.both first second) third) (.both first (.both second third))
  | oneOfAssoc (first second third : Filter) :
      Law (.oneOf (.oneOf first second) third) (.oneOf first (.oneOf second third))
  | negationBoth (first second : Filter) :
      Law (.negation (.both first second)) (.oneOf (.negation first) (.negation second))
  | negationOneOf (first second : Filter) :
      Law (.negation (.oneOf first second)) (.both (.negation first) (.negation second))
  | negationAtMost (limit seen : Nat) :
      Law (.negation (.atMost limit seen)) (.skip limit seen)

/-- Two filters answer a question alike, and a law holds of what they become. -/
def Keeps (left right : Filter) (question : Question) : Prop :=
  left.reply question = right.reply question ∧
    Law (left.following question) (right.following question)

variable {question : Question}

/-- Filters that answer alike and stay two sides of a law keep to it. -/
theorem keeps_of_judge {left right next other : Filter} {result : Except Fault Outcome}
    {after : Graph} (law : Law next other)
    (answered : left.judge question.source question.node question.graph = (result, next, after))
    (alike : right.judge question.source question.node question.graph = (result, other, after)) :
    Keeps left right question := by
  constructor
  · rw [reply, reply, answered, alike]
  · rw [following, following, answered, alike]
    exact law

/-- In either grouping a conjunction asks from left to right until a part does not include the
commit. -/
theorem bothAssoc_keeps (first second third : Filter) :
    Keeps (.both (.both first second) third) (.both first (.both second third)) question := by
  rcases asked : first.judge question.source question.node question.graph with
    ⟨result, nextFirst, between⟩
  by_cases included : result = .ok .include
  · subst included
    rcases again : second.judge question.source question.node between with
      ⟨result, nextSecond, later⟩
    by_cases included : result = .ok .include
    · subst included
      have grouped := judge_both_included asked again
      exact keeps_of_judge (.bothAssoc nextFirst nextSecond _) (judge_both_included grouped rfl)
        (judge_both_included asked (judge_both_included again rfl))
    · have grouped := judge_both_included asked again
      exact keeps_of_judge (.bothAssoc nextFirst nextSecond third)
        (judge_both_decided grouped included)
        (judge_both_included asked (judge_both_decided again included))
  · exact keeps_of_judge (.bothAssoc nextFirst second third)
      (judge_both_decided (judge_both_decided asked included) included)
      (judge_both_decided asked included)

/-- In either grouping a disjunction asks from left to right until a part includes the commit,
and it stops where all three parts do. -/
theorem oneOfAssoc_keeps (first second third : Filter) :
    Keeps (.oneOf (.oneOf first second) third) (.oneOf first (.oneOf second third)) question := by
  -- One case for each part that is the last to be asked. Only where it is the third one do the
  -- answers of all parts count.
  rcases asked : first.judge question.source question.node question.graph with
    ⟨fault | outcome, nextFirst, between⟩
  · exact keeps_of_judge (.oneOfAssoc nextFirst second third)
      (judge_oneOf_failed (judge_oneOf_failed asked)) (judge_oneOf_failed asked)
  by_cases included : outcome = .include
  · subst included
    exact keeps_of_judge (.oneOfAssoc nextFirst second third)
      (judge_oneOf_included (judge_oneOf_included asked)) (judge_oneOf_included asked)
  rcases again : second.judge question.source question.node between with
    ⟨fault | other, nextSecond, later⟩
  · have grouped := judge_oneOf_excluded asked included again
    exact keeps_of_judge (.oneOfAssoc nextFirst nextSecond third) (judge_oneOf_failed grouped)
      (judge_oneOf_excluded asked included (judge_oneOf_failed again))
  have grouped : (oneOf first second).judge question.source question.node question.graph =
      (.ok (outcome.orElse other), .oneOf nextFirst nextSecond, later) :=
    judge_oneOf_excluded asked included again
  by_cases taken : other = .include
  · subst taken
    have inner : (oneOf second third).judge question.source question.node between =
        (.ok .include, .oneOf nextSecond third, later) := judge_oneOf_included again
    have whole := judge_oneOf_excluded asked included inner
    rw [(Outcome.orElse_eq_include outcome .include).mpr rfl] at grouped
    rw [Except.map, (Outcome.orElse_eq_include outcome .include).mpr rfl] at whole
    exact keeps_of_judge (.oneOfAssoc nextFirst nextSecond third) (judge_oneOf_included grouped)
      whole
  · rcases last : third.judge question.source question.node later with ⟨result, nextThird, after⟩
    have excluded : outcome.orElse other ≠ .include := by
      rw [Ne, Outcome.orElse_eq_include]
      exact taken
    have whole := judge_oneOf_excluded asked included (judge_oneOf_excluded again taken last)
    rw [Outcome.map_map_eq fun third => (Outcome.orElse_assoc outcome other third).symm] at whole
    exact keeps_of_judge (.oneOfAssoc nextFirst nextSecond nextThird)
      (judge_oneOf_excluded grouped excluded last) whole

/-- The negation of a conjunction asks the right side where the left side includes, which is
where its negation excludes. -/
theorem negationBoth_keeps (first second : Filter) :
    Keeps (.negation (.both first second)) (.oneOf (.negation first) (.negation second))
      question := by
  rcases asked : first.judge question.source question.node question.graph with
    ⟨result, nextFirst, between⟩
  have opposite := judge_negation asked
  by_cases included : result = .ok .include
  · subst included
    rcases again : second.judge question.source question.node between with
      ⟨result, nextSecond, after⟩
    have whole := judge_oneOf_excluded opposite (by decide) (judge_negation again)
    rw [show Outcome.include.opposite = .exclude from rfl,
      Outcome.map_map_eq Outcome.exclude_orElse_opposite] at whole
    exact keeps_of_judge (.negationBoth nextFirst nextSecond)
      (judge_negation (judge_both_included asked again)) whole
  · have decided :
        (negation (both first second)).judge question.source question.node question.graph =
          (result.map Outcome.opposite, .negation (.both nextFirst second), between) :=
      judge_negation (judge_both_decided asked included)
    cases result with
    | error fault =>
      exact keeps_of_judge (.negationBoth nextFirst second) decided (judge_oneOf_failed opposite)
    | ok outcome =>
      have taken : outcome.opposite = .include :=
        (Outcome.opposite_eq_include outcome).mpr fun same => included (congrArg Except.ok same)
      rw [Except.map, taken] at decided opposite
      exact keeps_of_judge (.negationBoth nextFirst second) decided
        (judge_oneOf_included opposite)

/-- The negation of a disjunction asks the right side where the left side excludes, which is
where its negation includes. -/
theorem negationOneOf_keeps (first second : Filter) :
    Keeps (.negation (.oneOf first second)) (.both (.negation first) (.negation second))
      question := by
  rcases asked : first.judge question.source question.node question.graph with
    ⟨fault | outcome, nextFirst, between⟩
  all_goals have opposite := judge_negation asked
  · exact keeps_of_judge (.negationOneOf nextFirst second)
      (judge_negation (judge_oneOf_failed asked))
      (judge_both_decided opposite (by simp [Except.map]))
  by_cases included : outcome = .include
  · subst included
    exact keeps_of_judge (.negationOneOf nextFirst second)
      (judge_negation (judge_oneOf_included asked))
      (judge_both_decided opposite (by simp [Except.map, Outcome.opposite]))
  · rcases again : second.judge question.source question.node between with
      ⟨result, nextSecond, after⟩
    have whole := judge_negation (judge_oneOf_excluded asked included again)
    rw [Outcome.map_map_eq (Outcome.opposite_orElse outcome)] at whole
    rw [Except.map, (Outcome.opposite_eq_include outcome).mpr included] at opposite
    exact keeps_of_judge (.negationOneOf nextFirst nextSecond) whole
      (judge_both_included opposite (judge_negation again))

/-- A limit that is reached stops, and it counts no further commit. Neither does the negation. -/
theorem negationAtMost_keeps (limit seen : Nat) :
    Keeps (.negation (.atMost limit seen)) (.skip limit seen) question := by
  by_cases reached : limit ≤ seen
  · have stopped : (Filter.atMost limit seen).judge question.source question.node question.graph =
        (.ok .stop, .atMost limit seen, question.graph) := if_pos reached
    exact keeps_of_judge (.negationAtMost limit seen) (judge_negation stopped)
      (if_neg (Nat.not_lt.mpr reached))
  · have included : (Filter.atMost limit seen).judge question.source question.node question.graph =
        (.ok .include, .atMost limit (seen + 1), question.graph) := if_neg reached
    exact keeps_of_judge (.negationAtMost limit (seen + 1)) (judge_negation included)
      (if_pos (Nat.lt_of_not_le reached))

/-- A question keeps every law. -/
theorem Law.keeps {left right : Filter} (law : Law left right) : Keeps left right question := by
  cases law with
  | bothAssoc first second third => exact bothAssoc_keeps first second third
  | oneOfAssoc first second third => exact oneOfAssoc_keeps first second third
  | negationBoth first second => exact negationBoth_keeps first second
  | negationOneOf first second => exact negationOneOf_keeps first second
  | negationAtMost limit seen => exact negationAtMost_keeps limit seen

/-- Filters of which a law holds have the same answers to all questions, whatever their parts
have counted before. -/
theorem Law.replies {left right : Filter} (law : Law left right) (questions : List Question) :
    left.replies questions = right.replies questions :=
  replies_of_related Law (fun _ _ _ law => law.keeps) law questions

/-- The laws of filters: whatever the parts are and have counted, the answers to all questions
are the same on both sides, and so are the faults and the graphs.

Proof: each law is kept by one question: both sides answer alike and are two sides of the law again.
So the answers to all questions are the same, by induction on them. -/
theorem laws_hold (first second third : Filter) (limit seen : Nat) (questions : List Question) :
    (both (both first second) third).replies questions =
        (both first (both second third)).replies questions ∧
      (oneOf (oneOf first second) third).replies questions =
        (oneOf first (oneOf second third)).replies questions ∧
      (negation (both first second)).replies questions =
        (oneOf (negation first) (negation second)).replies questions ∧
      (negation (oneOf first second)).replies questions =
        (both (negation first) (negation second)).replies questions ∧
      (negation (atMost limit seen)).replies questions = (skip limit seen).replies questions := by
  refine ⟨?_, ?_, ?_, ?_, ?_⟩
  · exact (Law.bothAssoc first second third).replies questions
  · exact (Law.oneOfAssoc first second third).replies questions
  · exact (Law.negationBoth first second).replies questions
  · exact (Law.negationOneOf first second).replies questions
  · exact (Law.negationAtMost limit seen).replies questions

end Filter

end Ancestry
