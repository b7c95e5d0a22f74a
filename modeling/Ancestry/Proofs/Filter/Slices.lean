import Ancestry.Log.Options
import Ancestry.Proofs.Walk.Filtering

/-!
# Counting filters come last

The right side of a conjunction is asked about the commits that the left side includes, and
about no others. So the filters that count, which come last in a conjunction, take a slice of
what the other filters select: they leave out a number of commits from its front and take a
number of those that are left. This is so whatever the other filters are, and whether they end
the selection early or not, unless they fail.
-/

namespace Ancestry

namespace Filter

variable {source : Source} {node : Node} {ending : Option Fault} {nodes given : List Node}

/-- A conjunction whose left side includes the commit answers as its right side. -/
theorem answer_both_included {left next : Filter} (right : Filter)
    (included : left.answer source node = (.ok .include, next)) :
    (both left right).answer source node =
      ((right.answer source node).1, .both next (right.answer source node).2) := by
  obtain ⟨between, asked, kept⟩ := judge_answer source node left {} (Graph.faithful_empty source)
  obtain ⟨after, again, _⟩ := judge_answer source node right between kept
  rw [included] at asked
  rw [answer, judge_both_included asked again]

/-- Otherwise it answers as its left side. -/
theorem answer_both_decided {left next : Filter} {result : Except Fault Outcome} (right : Filter)
    (answered : left.answer source node = (result, next)) (decided : result ≠ .ok .include) :
    (both left right).answer source node = (result, .both next right) := by
  obtain ⟨between, asked, _⟩ := judge_answer source node left {} (Graph.faithful_empty source)
  rw [answered] at asked
  rw [answer, judge_both_decided asked decided]

/-- A conjunction selects what its right side selects from what its left side does. -/
theorem select_both {left : Filter} (right : Filter)
    (selects : select source ending left nodes = (given, none)) :
    select source ending (both left right) nodes = select source none right given := by
  induction nodes generalizing left right given with
  | nil =>
    obtain ⟨rfl, rfl⟩ := Prod.mk.inj selects
    rfl
  | cons node rest inductionHypothesis =>
    rcases answered : left.answer source node with ⟨fault | outcome, next⟩
    · simp [select, answered] at selects
    cases outcome with
    | stop =>
      have both := answer_both_decided right answered (by simp)
      obtain rfl : [] = given := by simpa [select, answered] using selects
      simp only [select, both]
    | exclude =>
      have both := answer_both_decided right answered (by simp)
      simp only [select, answered] at selects
      simp only [select, both]
      exact inductionHypothesis right selects
    | «include» =>
      have both := answer_both_included right answered
      rcases selected : select source ending next rest with ⟨others, last⟩
      simp only [select, answered, selected, Prod.mk.injEq] at selects
      obtain ⟨rfl, rfl⟩ := selects
      have later (right : Filter) := inductionHypothesis right selected
      rcases asked : right.answer source node with ⟨fault | outcome, other⟩
      · simp only [select, both, asked]
      · cases outcome <;> simp only [select, both, asked, later]

/-- So does a filter that comes after all others. -/
theorem select_all_append (filters : List Filter) (last : Filter)
    (selects : select source ending (all filters) nodes = (given, none)) :
    select source ending (all (filters ++ [last])) nodes = select source none last given := by
  cases filters with
  | nil =>
    rw [all, select_everything] at selects
    obtain ⟨rfl, rfl⟩ := Prod.mk.inj selects
    rfl
  | cons filter rest =>
    have whole : all (filter :: rest ++ [last]) = both (all (filter :: rest)) last := by
      simp only [all, List.cons_append, List.foldl_append, List.foldl_cons, List.foldl_nil]
    rw [whole]
    exact select_both last selects

/-- Commits are left out from the front. -/
theorem select_skip (count seen : Nat) (nodes : List Node) :
    select source ending (.skip count seen) nodes = (nodes.drop (count - seen), ending) := by
  induction nodes generalizing seen with
  | nil => simp [select]
  | cons node rest inductionHypothesis =>
    by_cases early : seen < count
    · have excluded : answer source node (.skip count seen) =
          (.ok .exclude, .skip count (seen + 1)) := by
        simp [answer, judge, early]
      have left : count - seen = count - (seen + 1) + 1 := by omega
      simp only [select, excluded, inductionHypothesis, left, List.drop_succ_cons]
    · have included : answer source node (.skip count seen) = (.ok .include, .skip count seen) := by
        simp [answer, judge, early]
      simp only [select, included, inductionHypothesis,
        Nat.sub_eq_zero_of_le (Nat.not_lt.mp early), List.drop_zero]

end Filter

/-- Some commits without the first ones and, of the others, as many from the front as are asked
for. -/
def page (skip count : Option Nat) (nodes : List Node) : List Node :=
  let rest := nodes.drop (skip.getD 0)
  match count with
  | none => rest
  | some count => rest.take count

/-- A page has some of the commits in their order. -/
theorem page_sublist (skip count : Option Nat) (nodes : List Node) :
    (page skip count nodes).Sublist nodes := by
  cases count with
  | none => exact List.drop_sublist _ nodes
  | some count => exact (List.take_sublist count _).trans (List.drop_sublist _ nodes)

namespace LogOptions

open Ancestry.Filter (all select)

variable {source : Source} {ending : Option Fault} {nodes given : List Node}
  {options : LogOptions} {filter : Filter}

/-- The same log by pages: some commits are left out first, and a number of them is taken. -/
def paged (options : LogOptions) (skip count : Option Nat) : LogOptions :=
  { options with skip, maxCount := count }

/-- The filters that count come after those that do not. -/
theorem filter_paged (unskipped : options.skip = none) (unlimited : options.maxCount = none)
    (chosen : options.filter = .ok filter) (skip count : Option Nat) :
    ∃ filters, filter = all filters ∧ (options.paged skip count).filter =
      .ok (all (filters ++ (skip.map (Filter.skip · 0)).toList ++
        (count.map (Filter.atMost · 0)).toList)) := by
  rw [LogOptions.filter] at chosen
  cases messages : options.messageFilter? with
  | error fault => simp [messages] at chosen
  | ok message =>
    cases pickaxe : options.pickaxeFilter? with
    | error fault => simp [messages, pickaxe] at chosen
    | ok occurrences =>
      have sameMessages : (options.paged skip count).messageFilter? = .ok message := messages
      have samePickaxe : (options.paged skip count).pickaxeFilter? = .ok occurrences := pickaxe
      let plain := [options.window?.map .window, if options.noMerges then some .noMerges else none,
        message, occurrences]
      have counting : ∀ skips counts : Option Filter,
          (plain ++ [skips, counts]).filterMap id =
            plain.filterMap id ++ skips.toList ++ counts.toList := by
        intro skips counts
        rw [List.filterMap_append, List.append_assoc]
        cases skips <;> cases counts <;> rfl
      refine ⟨plain.filterMap id, ?_, ?_⟩
      · simp only [messages, pickaxe, unskipped, unlimited] at chosen
        rw [← Except.ok.inj chosen]
        refine congrArg all ((counting none none).trans ?_)
        rw [Option.toList_none, List.append_nil, List.append_nil]
      · rw [LogOptions.filter, sameMessages]
        simp only [samePickaxe]
        exact congrArg (fun filters => Except.ok (all filters)) (counting _ _)

/-- A log by pages selects a page of what the log selects. -/
theorem select_paged (unskipped : options.skip = none) (unlimited : options.maxCount = none)
    (chosen : options.filter = .ok filter)
    (selects : select source ending filter nodes = (given, none)) (skip count : Option Nat) :
    ∃ counting, (options.paged skip count).filter = .ok counting ∧
      select source ending counting nodes = (page skip count given, none) := by
  obtain ⟨filters, rfl, counting⟩ := filter_paged unskipped unlimited chosen skip count
  refine ⟨_, counting, ?_⟩
  have skipped : select source ending (all (filters ++ (skip.map (Filter.skip · 0)).toList))
      nodes = (given.drop (skip.getD 0), none) := by
    cases skip with
    | none =>
      rw [Option.map_none, Option.toList_none, List.append_nil]
      exact selects
    | some skip => exact (Filter.select_all_append filters _ selects).trans (Filter.select_skip ..)
  cases count with
  | none =>
    rw [Option.map_none, Option.toList_none, List.append_nil]
    exact skipped
  | some count =>
    refine (Filter.select_all_append _ _ skipped).trans ?_
    rw [Filter.select_atMost, ite_self]
    rfl

end LogOptions

end Ancestry
