import Ancestry.Proofs.Answers

/-!
# Stops of filters

A filter says that a walk may stop when it has nothing more to include. That can be read
off its parts: a bound that the time has passed, a limit that is reached, and nothing at
all include no commit any more as long as none comes that is later than the one of the
stop. A conjunction is spent with one of its sides and a disjunction with both. A negation
never stops, and a spent part of it is no matter.

Being spent is kept by every further question, also by one that fails or that reaches only
one side. So after a stop nothing is included any more.
-/

namespace Ancestry

namespace Filter

variable {source : Source} {node : Node} {filter left right : Filter} {time : Int}

/-- Whatever commits of at most the given time the filter is asked about, it includes
none. -/
def Spent (time : Int) : Filter → Prop
  | .nothing => True
  | .both left right => left.Spent time ∨ right.Spent time
  | .oneOf left right => left.Spent time ∧ right.Spent time
  | .window (.after earliest) => time < earliest
  | .window (.between earliest _) => time < earliest
  | .atMost limit seen => limit ≤ seen
  | _ => False

/-- A conjunction asks its right side only where the left side includes the commit. -/
theorem judge_both (source : Source) (node : Node) (left right : Filter) (graph : Graph) :
    ∃ first nextLeft between, left.judge source node graph = (first, nextLeft, between) ∧
      ((first = .ok .include ∧ ∃ second nextRight after,
          right.judge source node between = (second, nextRight, after) ∧
          (both left right).judge source node graph = (second, .both nextLeft nextRight, after)) ∨
        (first ≠ .ok .include ∧
          (both left right).judge source node graph = (first, .both nextLeft right, between))) := by
  rcases asked : left.judge source node graph with ⟨first, nextLeft, between⟩
  refine ⟨first, nextLeft, between, rfl, ?_⟩
  by_cases included : first = .ok .include
  · subst included
    exact .inl ⟨rfl, _, _, _, rfl, judge_both_included asked rfl⟩
  · exact .inr ⟨included, judge_both_decided asked included⟩

/-- A disjunction asks its right side only where the left side excludes the commit, and it
stops only where both sides do. -/
theorem judge_oneOf (source : Source) (node : Node) (left right : Filter) (graph : Graph) :
    ∃ first nextLeft between, left.judge source node graph = (first, nextLeft, between) ∧
      ((first = .ok .include ∧
          (oneOf left right).judge source node graph =
            (.ok .include, .oneOf nextLeft right, between)) ∨
        (∃ fault, first = .error fault ∧
          (oneOf left right).judge source node graph =
            (.error fault, .oneOf nextLeft right, between)) ∨
        ∃ outcome second nextRight after, first = .ok outcome ∧ outcome ≠ .include ∧
          right.judge source node between = (second, nextRight, after) ∧
          (oneOf left right).judge source node graph =
            (second.map outcome.orElse, .oneOf nextLeft nextRight, after)) := by
  rcases asked : left.judge source node graph with ⟨first, nextLeft, between⟩
  refine ⟨first, nextLeft, between, rfl, ?_⟩
  rcases first with fault | outcome
  · exact .inr (.inl ⟨fault, rfl, judge_oneOf_failed asked⟩)
  by_cases included : outcome = .include
  · subst included
    exact .inl ⟨rfl, judge_oneOf_included asked⟩
  · exact .inr (.inr ⟨outcome, _, _, _, rfl, included, rfl,
      judge_oneOf_excluded asked included rfl⟩)

/-- A spent filter does not include a commit that is not later, and it stays spent. -/
theorem Spent.judge (spent : filter.Spent time) (past : node.time ≤ time) (graph : Graph) :
    (filter.judge source node graph).1 ≠ .ok .include ∧
      (filter.judge source node graph).2.1.Spent time := by
  induction filter generalizing graph with
  | everything | noMerges | message | occurrences | skip | negation => exact absurd spent id
  | nothing => exact ⟨by simp [Filter.judge], trivial⟩
  | window bounds =>
    cases bounds with
    | before latest => exact absurd spent id
    | after earliest | between earliest latest =>
      have early : node.time < earliest := Int.lt_of_le_of_lt past spent
      refine ⟨?_, spent⟩
      simp [Filter.judge, Window.judge, early]
  | atMost limit seen =>
    have full : limit ≤ seen := spent
    simp only [Filter.judge, if_pos full]
    exact ⟨by simp, full⟩
  | both left right leftSpent rightSpent =>
    obtain ⟨first, nextLeft, between, asked, one | one⟩ := judge_both source node left right graph
    · obtain ⟨included, second, nextRight, after, again, both⟩ := one
      rw [both]
      rcases spent with spent | spent
      · have stays := leftSpent spent graph
        rw [asked, included] at stays
        exact absurd rfl stays.1
      · have stays := rightSpent spent between
        rw [again] at stays
        exact ⟨stays.1, .inr stays.2⟩
    · obtain ⟨excluded, both⟩ := one
      rw [both]
      refine ⟨excluded, ?_⟩
      rcases spent with spent | spent
      · have stays := leftSpent spent graph
        rw [asked] at stays
        exact .inl stays.2
      · exact .inr spent
  | oneOf left right leftSpent rightSpent =>
    obtain ⟨first, nextLeft, between, asked, one | one | one⟩ :=
      judge_oneOf source node left right graph
    all_goals
      have stays := leftSpent spent.1 graph
      rw [asked] at stays
    · exact absurd one.1 stays.1
    · obtain ⟨fault, failed, oneOf⟩ := one
      rw [oneOf]
      exact ⟨by simp, stays.2, spent.2⟩
    · obtain ⟨outcome, second, nextRight, after, excluded, _, again, oneOf⟩ := one
      have still := rightSpent spent.2 between
      rw [again] at still
      rw [oneOf]
      refine ⟨?_, stays.2, still.2⟩
      rcases second with fault | other
      · simp [Except.map]
      · intro included
        have right := (Outcome.orElse_eq_include outcome other).mp (Except.ok.inj included)
        exact still.1 (congrArg Except.ok right)

/-- A filter that stops is spent from the time of the commit on. -/
theorem spent_of_stop (graph : Graph) (stopped : (filter.judge source node graph).1 = .ok .stop) :
    (filter.judge source node graph).2.1.Spent node.time := by
  induction filter generalizing graph with
  | everything => simp [judge] at stopped
  | nothing => trivial
  | noMerges =>
    simp only [judge, Except.ok.injEq] at stopped
    cases merge : node.isMerge <;> simp [merge, Outcome.ofBool] at stopped
  | message search =>
    rcases read : graph.message source node with ⟨fault | text, after⟩
    · simp [judge, read, Except.map] at stopped
    · cases found : search.isIn text <;>
        simp [judge, read, Except.map, found, Outcome.ofBool] at stopped
  | occurrences needle =>
    rcases touched : Pickaxe.touches source needle graph node with ⟨fault | found, after⟩
    · simp [judge, touched, Except.map] at stopped
    · cases found <;> simp [judge, touched, Except.map, Outcome.ofBool] at stopped
  | window bounds =>
    cases bounds with
    | before latest =>
      by_cases within : node.time ≤ latest <;>
        simp [judge, Window.judge, within, Outcome.ofBool] at stopped
    | after earliest =>
      by_cases early : node.time < earliest
      · exact early
      · simp [judge, Window.judge, early] at stopped
    | between earliest latest =>
      by_cases early : node.time < earliest
      · exact early
      · by_cases within : node.time ≤ latest <;>
          simp [judge, Window.judge, early, within, Outcome.ofBool] at stopped
  | atMost limit seen =>
    by_cases full : limit ≤ seen
    · simp only [judge, if_pos full]
      exact full
    · simp [judge, full] at stopped
  | skip count seen =>
    by_cases early : seen < count <;> simp [judge, early] at stopped
  | negation inner =>
    rcases asked : inner.judge source node graph with ⟨fault | outcome, next, after⟩
    · simp [judge, asked, Except.map] at stopped
    · cases outcome <;> simp [judge, asked, Except.map, Outcome.opposite] at stopped
  | both left right leftSpent rightSpent =>
    obtain ⟨first, nextLeft, between, asked, one | one⟩ := judge_both source node left right graph
    · obtain ⟨_, second, nextRight, after, again, both⟩ := one
      rw [both] at stopped ⊢
      have spent := rightSpent between
      rw [again] at spent
      exact .inr (spent stopped)
    · obtain ⟨_, both⟩ := one
      rw [both] at stopped ⊢
      have spent := leftSpent graph
      rw [asked] at spent
      exact .inl (spent stopped)
  | oneOf left right leftSpent rightSpent =>
    obtain ⟨first, nextLeft, between, asked, one | one | one⟩ :=
      judge_oneOf source node left right graph
    · rw [one.2] at stopped
      simp at stopped
    · obtain ⟨fault, _, oneOf⟩ := one
      rw [oneOf] at stopped
      simp at stopped
    · obtain ⟨outcome, second, nextRight, after, rfl, _, again, oneOf⟩ := one
      have spentLeft := leftSpent graph
      have spentRight := rightSpent between
      rw [asked] at spentLeft
      rw [again] at spentRight
      rw [oneOf] at stopped ⊢
      rcases second with fault | other
      · simp [Except.map] at stopped
      · have stops := (Outcome.orElse_eq_stop outcome other).mp (Except.ok.inj stopped)
        exact ⟨spentLeft (congrArg Except.ok stops.1), spentRight (congrArg Except.ok stops.2)⟩

/-- The filter is asked about one commit after another, each time through whatever graph
there is then. These are its answers and what it becomes. -/
inductive Asked (source : Source) : Filter → List Node → List (Except Fault Outcome) → Filter → Prop
    where
  | nothing (filter : Filter) : Asked source filter [] [] filter
  | more {filter next last : Filter} {node : Node} {nodes : List Node} {graph after : Graph}
      {result : Except Fault Outcome} {results : List (Except Fault Outcome)}
      (asked : filter.judge source node graph = (result, next, after))
      (rest : Asked source next nodes results last) :
      Asked source filter (node :: nodes) (result :: results) last

/-- A spent filter includes none of any number of commits that are not later. -/
theorem Spent.asked {nodes : List Node} {results : List (Except Fault Outcome)} {last : Filter}
    (spent : filter.Spent time) (asked : Asked source filter nodes results last)
    (past : ∀ other ∈ nodes, other.time ≤ time) : .ok .include ∉ results := by
  induction asked with
  | nothing => exact List.not_mem_nil
  | @more filter next last node nodes graph after result results answered rest
      inductionHypothesis =>
    have stays : (filter.judge source node graph).1 ≠ .ok .include ∧
        (filter.judge source node graph).2.1.Spent time :=
      spent.judge (past node List.mem_cons_self) graph
    rw [answered] at stays
    intro member
    rcases List.mem_cons.mp member with same | member
    · exact stays.1 same.symm
    · have others : ∀ other ∈ nodes, other.time ≤ time :=
        fun other inside => past other (List.mem_cons_of_mem node inside)
      exact inductionHypothesis stays.2 others member

/-- Questions change the counters of a filter and nothing else. -/
theorem judge_fresh (source : Source) (node : Node) (filter : Filter) (graph : Graph) :
    (filter.judge source node graph).2.1.fresh = filter.fresh := by
  induction filter generalizing graph with
  | everything | nothing | noMerges | window | message | occurrences => rfl
  | atMost limit seen => by_cases full : limit ≤ seen <;> simp [judge, full, fresh]
  | skip count seen => by_cases early : seen < count <;> simp [judge, early, fresh]
  | negation inner inductionHypothesis =>
    simp only [judge, fresh]
    rw [inductionHypothesis]
  | both left right leftFresh rightFresh =>
    have freshLeft := leftFresh graph
    obtain ⟨first, nextLeft, between, asked, one | one⟩ := judge_both source node left right graph
    · obtain ⟨_, second, nextRight, after, again, both⟩ := one
      have freshRight := rightFresh between
      rw [asked] at freshLeft
      rw [again] at freshRight
      rw [both]
      simp only [fresh, freshLeft, freshRight]
    · rw [asked] at freshLeft
      rw [one.2]
      simp only [fresh, freshLeft]
  | oneOf left right leftFresh rightFresh =>
    have freshLeft := leftFresh graph
    obtain ⟨first, nextLeft, between, asked, one | one | one⟩ :=
      judge_oneOf source node left right graph
    all_goals rw [asked] at freshLeft
    · rw [one.2]
      simp only [fresh, freshLeft]
    · obtain ⟨fault, _, oneOf⟩ := one
      rw [oneOf]
      simp only [fresh, freshLeft]
    · obtain ⟨outcome, second, nextRight, after, _, _, again, oneOf⟩ := one
      have freshRight := rightFresh between
      rw [again] at freshRight
      rw [oneOf]
      simp only [fresh, freshLeft, freshRight]

/-- A fresh filter has no counters to be taken back. -/
theorem fresh_fresh (filter : Filter) : filter.fresh.fresh = filter.fresh := by
  induction filter with
  | negation inner inductionHypothesis => simp only [fresh, inductionHypothesis]
  | both left right leftFresh rightFresh | oneOf left right leftFresh rightFresh =>
    simp only [fresh, leftFresh, rightFresh]
  | _ => rfl

/-- What a filter includes of some commits when it is asked about all of them, and a stop is
no more than an exclusion. -/
def sift (source : Source) : Filter → List Node → Except Fault (List Node)
  | _, [] => .ok []
  | filter, node :: rest =>
    match filter.answer source node with
    | (.error fault, _) => .error fault
    | (.ok .include, next) => (sift source next rest).map (node :: ·)
    | (.ok _, next) => sift source next rest

/-- A fault comes from a question about one of the commits, in some state of the
counters. -/
theorem sift_fault {nodes : List Node} {fault : Fault}
    (failed : filter.sift source nodes = .error fault) :
    ∃ node ∈ nodes, ∃ state : Filter, state.fresh = filter.fresh ∧
      (state.answer source node).1 = .error fault := by
  induction nodes generalizing filter with
  | nil => cases failed
  | cons node rest inductionHypothesis =>
    have fresh : (filter.answer source node).2.fresh = filter.fresh :=
      judge_fresh source node filter {}
    rcases answered : filter.answer source node with ⟨reason | outcome, next⟩
    · simp only [sift, answered, Except.error.injEq] at failed
      exact ⟨node, List.mem_cons_self, filter, rfl, by rw [answered, failed]⟩
    · have later : next.sift source rest = .error fault := by
        cases outcome with
        | exclude | stop => simpa only [sift, answered] using failed
        | «include» =>
          rcases sifted : next.sift source rest with other | others
          · simpa only [sift, answered, sifted, Except.map] using failed
          · simp [sift, answered, sifted, Except.map] at failed
      rw [answered] at fresh
      obtain ⟨other, member, state, same, fails⟩ := inductionHypothesis later
      exact ⟨other, List.mem_cons_of_mem node member, state, same.trans fresh, fails⟩

/-- Selecting fails where asking about all commits fails, unless it stops before. -/
theorem select_fault {nodes : List Node} {fault : Fault}
    (failed : (filter.select source none nodes).2 = some fault) :
    filter.sift source nodes = .error fault := by
  induction nodes generalizing filter with
  | nil => cases failed
  | cons node rest inductionHypothesis =>
    rcases answered : filter.answer source node with ⟨reason | outcome, next⟩
    · simp only [select, answered, Option.some.injEq] at failed
      simp only [sift, answered, failed]
    · cases outcome with
      | stop => simp [select, answered] at failed
      | exclude =>
        simp only [select, answered] at failed
        simp only [sift, answered, inductionHypothesis failed]
      | «include» =>
        simp only [select, answered] at failed
        simp only [sift, answered, inductionHypothesis failed, Except.map]

/-- A spent filter leaves nothing of commits that are not later. -/
theorem Spent.sift {nodes kept : List Node} (spent : filter.Spent time)
    (past : ∀ other ∈ nodes, other.time ≤ time) (sifted : filter.sift source nodes = .ok kept) :
    kept = [] := by
  induction nodes generalizing filter with
  | nil =>
    cases sifted
    rfl
  | cons node rest inductionHypothesis =>
    have stays : (filter.answer source node).1 ≠ .ok .include ∧
        (filter.answer source node).2.Spent time := spent.judge (past node List.mem_cons_self) {}
    have others : ∀ other ∈ rest, other.time ≤ time :=
      fun other member => past other (List.mem_cons_of_mem node member)
    rcases answered : filter.answer source node with ⟨fault | outcome, next⟩
    · simp [Filter.sift, answered] at sifted
    · rw [answered] at stays
      cases outcome with
      | «include» => exact absurd rfl stays.1
      | exclude | stop =>
        simp only [Filter.sift, answered] at sifted
        exact inductionHypothesis stays.2 others sifted

/-- Where times do not rise, stopping loses nothing: what a filter selects before it stops is
all that it includes. -/
theorem select_of_sift {nodes kept : List Node}
    (falls : nodes.Pairwise fun earlier later => later.time ≤ earlier.time)
    (sifted : filter.sift source nodes = .ok kept) :
    filter.select source none nodes = (kept, none) := by
  induction nodes generalizing filter kept with
  | nil =>
    cases sifted
    rfl
  | cons node rest inductionHypothesis =>
    obtain ⟨past, falls⟩ := List.pairwise_cons.mp falls
    rcases answered : filter.answer source node with ⟨fault | outcome, next⟩
    · simp [sift, answered] at sifted
    · cases outcome with
      | exclude =>
        simp only [sift, answered] at sifted
        simp only [select, answered, inductionHypothesis falls sifted]
      | stop =>
        simp only [sift, answered] at sifted
        have stopped : (filter.judge source node {}).1 = .ok .stop := congrArg Prod.fst answered
        have spent : (filter.answer source node).2.Spent node.time := spent_of_stop {} stopped
        rw [answered] at spent
        simp only [select, answered, spent.sift past sifted]
      | «include» =>
        rcases left : next.sift source rest with fault | others
        · simp [sift, answered, left, Except.map] at sifted
        · simp only [sift, answered, left, Except.map, Except.ok.injEq] at sifted
          subst sifted
          simp only [select, answered, inductionHypothesis falls left]

end Filter

end Ancestry
