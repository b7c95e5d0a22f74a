import Ancestry.Proofs.Log.Bare
import Ancestry.Proofs.Log.Marking
import Ancestry.Proofs.Log.Reports
import Ancestry.Proofs.Walk.Exclusion

/-!
# Ranges of a log

A range asks for what one commit reaches and another does not, and so do the two ways to
write it as two arguments. The log shows nothing outside the first part and leaves out
nothing that it should show. It shows too much exactly if some commit that both reach
comes before every path from the hidden one to it, in the order in which a log of both
commits shows them. Commits of equal times can stand in such an order; where times fall
from the hidden commit on there is none.
-/

namespace Ancestry

namespace Log

open Walk (Pass)

variable {repository : Repository} {graph : Graph}

/-- The marks that an argument asks for. -/
inductive Asks (repository : Repository) : RevisionArg → List Mark → Prop where
  | included {revision : Revision} {id : ObjectId} (means : repository.meaning revision = .ok id) :
      Asks repository (.included revision) [.start id]
  | excluded {revision : Revision} {id : ObjectId} (means : repository.meaning revision = .ok id) :
      Asks repository (.excluded revision) [.hide id]
  | range {older newer : Revision} {a b : ObjectId} (meansOlder : repository.meaning older = .ok a)
      (meansNewer : repository.meaning newer = .ok b) :
      Asks repository (.range older newer) [.hide a, .start b]

/-- Doing what an argument asks for. -/
theorem Asks.determines {argument : RevisionArg} {marks : List Mark}
    (asks : Asks repository argument marks)
    (resolved : ∀ id ∈ marks.map Mark.id, repository.source.Resolves id) :
    Determines repository (markArgument repository argument) (.ok ()) marks := by
  cases asks with
  | included means => exact withRevision_succeeds Mark.start means (resolved _ List.mem_cons_self)
  | excluded means => exact withRevision_succeeds Mark.hide means (resolved _ List.mem_cons_self)
  | @range older newer a b meansOlder meansNewer =>
    have one : Determines repository (hideFrom repository older) (.ok ()) [.hide a] :=
      withRevision_succeeds Mark.hide meansOlder (resolved a List.mem_cons_self)
    have two : Determines repository (startFrom repository newer) (.ok ()) [.start b] :=
      withRevision_succeeds Mark.start meansNewer
        (resolved b (List.mem_cons_of_mem _ List.mem_cons_self))
    refine one.andThen two fun walk graph between kept ran => ?_
    simp only [markArgument, ran]

/-- The marks that the texts of arguments ask for. -/
inductive AsksAll (repository : Repository) : List String → List Mark → Prop where
  | none : AsksAll repository [] []
  | more {text : String} {texts : List String} {argument : RevisionArg} {marks others : List Mark}
      (reads : RevisionArg.parse text = .ok argument) (asks : Asks repository argument marks)
      (rest : AsksAll repository texts others) :
      AsksAll repository (text :: texts) (marks ++ others)

/-- An argument with a start names one. -/
theorem Asks.hasStart {argument : RevisionArg} {marks : List Mark}
    (asks : Asks repository argument marks) :
    hasStart argument = !(marks.filterMap Mark.started).isEmpty := by
  cases asks <;> rfl

/-- Doing what the arguments ask for, where some of them name a start. -/
theorem AsksAll.determines {texts : List String} {marks : List Mark} (started : Bool)
    (asks : AsksAll repository texts marks)
    (starts : started = true ∨ marks.filterMap Mark.started ≠ [])
    (resolved : ∀ id ∈ marks.map Mark.id, repository.source.Resolves id) :
    Determines repository (markArguments repository started texts) (.ok ()) marks := by
  induction asks generalizing started with
  | none =>
    obtain rfl := starts.resolve_right fun some => some rfl
    exact determines_still (.ok ())
  | @more text texts argument marks others reads asks rest inductionHypothesis =>
    rw [List.map_append] at resolved
    have first := asks.determines fun id member => resolved id (List.mem_append_left _ member)
    have still : (started || hasStart argument) = true ∨ others.filterMap Mark.started ≠ [] := by
      rw [asks.hasStart]
      by_cases empty : marks.filterMap Mark.started = []
      · rw [List.filterMap_append, empty] at starts
        simpa [empty] using starts
      · exact .inl (by simp [empty])
    have second := inductionHypothesis (started || hasStart argument) still
      fun id member => resolved id (List.mem_append_right _ member)
    refine first.andThen second fun walk graph between kept ran => ?_
    simp only [markArguments, reads, ran]

/-- The log of arguments that ask for marks, without filters and in the default order,
where every commit that is reached can be read. It excludes what the marks hide, and
exactly so if and only if what is hidden is announced in time. -/
theorem run_excludes {texts : List String} {marks : List Mark}
    (asks : AsksAll repository texts marks) (starts : marks.filterMap Mark.started ≠ [])
    (readable : ∀ id, repository.source.Reached (marks.map Mark.id) id →
      ∃ commit, repository.source.commit id = .ok commit)
    (faithful : graph.Faithful repository.source) (oneline abbreviated coloured : Bool) :
    ∃ shown order,
      (run repository { revisions := texts, oneline, abbreviated } coloured graph).1 =
        reportOf repository.source { revisions := texts, oneline, abbreviated } coloured none true
          shown ∧
      (∀ node ∈ shown, repository.source.Reached (marks.map Mark.id) node.id) ∧
      Walk.Excludes repository.source (marks.filterMap Mark.started)
        (marks.filterMap Mark.hidden) shown ∧
      (∃ after kept, Pass repository.source
        (Walk.markAll repository.source (marks.map Mark.shown) {} {}).1
        (Walk.markAll repository.source (marks.map Mark.shown) {} {}).2 order none after kept) ∧
      ((∀ id, id ∈ shown.map Node.id ↔
          repository.source.Reached (marks.filterMap Mark.started) id ∧
            ¬ repository.source.Reached (marks.filterMap Mark.hidden) id) ↔
        repository.source.Preceded (marks.filterMap Mark.started) (marks.filterMap Mark.hidden)
          order) := by
  have resolved : ∀ id, repository.source.Reached (marks.map Mark.id) id →
      repository.source.Resolves id := fun id reached =>
    Source.resolves_of_commit (readable id reached).choose_spec
  obtain ⟨walk, store, ran, faithful, tells⟩ := asks.determines false (.inr starts)
    (fun id member => resolved id (Source.reached_root member)) {} graph [] []
    (Walk.marked_new repository.source .everything {}) faithful
  obtain ⟨shown, ending, after, kept, course, pass, _⟩ := tells.whole faithful
  have settled := (tells.resolved fun id member => resolved id (Source.reached_root member)).settled
  obtain rfl := course.clean settled resolved
  obtain ⟨plain, stillFaithful⟩ := Walk.markAll_tells (marks.map Mark.shown)
    (Walk.marked_new repository.source .everything {}) (Graph.faithful_empty repository.source)
  obtain ⟨order, ended, last, left, whole, passOrder, _⟩ := plain.whole stillFaithful
  obtain rfl := whole.clean (plain.bare resolved).settled resolved
  have excludes := tells.excludes resolved course
  refine ⟨shown, order, ?_, fun node member => (course.reached settled node member).2, excludes,
    ⟨last, left, passOrder⟩, excludes.exact_iff (fun id reached => ?_)
      fun before node after split => tells.sifts plain resolved course whole split⟩
  · have short : shown.length ≤ ObjectId.total := by
      simpa using ObjectId.length_le_total (shown.map Node.id) excludes.distinct
    obtain ⟨rest, printed⟩ := printWithin_pass { revisions := texts, oneline, abbreviated } coloured
      true ObjectId.total pass short
    have unfiltered : LogOptions.filter { revisions := texts, oneline, abbreviated } =
        .ok .everything := rfl
    simp only [run, unfiltered, ran, printed]
  · obtain ⟨root, member, path⟩ := reached
    exact plain.covers resolved whole
      ⟨root, (Walk.mem_marked marks root).mpr (.inl member), path⟩

/-- The three ways to ask for what `b` reaches and `a` does not: one range, or two arguments
in either order. -/
inductive Between (repository : Repository) (a b : ObjectId) : List String → List Mark → Prop where
  | range {text : String} {older newer : Revision}
      (reads : RevisionArg.parse text = .ok (.range older newer))
      (meansOlder : repository.meaning older = .ok a)
      (meansNewer : repository.meaning newer = .ok b) :
      Between repository a b [text] [.hide a, .start b]
  | shownFirst {shown hidden : String} {older newer : Revision}
      (readsShown : RevisionArg.parse shown = .ok (.included newer))
      (readsHidden : RevisionArg.parse hidden = .ok (.excluded older))
      (meansOlder : repository.meaning older = .ok a)
      (meansNewer : repository.meaning newer = .ok b) :
      Between repository a b [shown, hidden] [.start b, .hide a]
  | hiddenFirst {shown hidden : String} {older newer : Revision}
      (readsShown : RevisionArg.parse shown = .ok (.included newer))
      (readsHidden : RevisionArg.parse hidden = .ok (.excluded older))
      (meansOlder : repository.meaning older = .ok a)
      (meansNewer : repository.meaning newer = .ok b) :
      Between repository a b [hidden, shown] [.hide a, .start b]

variable {a b : ObjectId} {texts : List String} {marks : List Mark}

/-- However it is asked, the arguments ask for the marks of the two sides. -/
theorem Between.asks (between : Between repository a b texts marks) :
    AsksAll repository texts marks := by
  cases between with
  | range reads meansOlder meansNewer => exact .more reads (.range meansOlder meansNewer) .none
  | shownFirst readsShown readsHidden meansOlder meansNewer =>
    exact .more readsShown (.included meansNewer) (.more readsHidden (.excluded meansOlder) .none)
  | hiddenFirst readsShown readsHidden meansOlder meansNewer =>
    exact .more readsHidden (.excluded meansOlder) (.more readsShown (.included meansNewer) .none)

/-- However it is asked, one commit is started from, the other is hidden, and they are all
that is marked. -/
theorem Between.sides (between : Between repository a b texts marks) :
    marks.filterMap Mark.started = [b] ∧ marks.filterMap Mark.hidden = [a] ∧
      ∀ root ∈ marks.map Mark.id, root ∈ [a, b] := by
  cases between <;> exact ⟨rfl, rfl, by simp [Mark.id]⟩

/-- Four commits of one time. The shown one and the hidden one both reach the shared one,
the hidden one by a commit more. -/
def late : Repository :=
  bare [(.uniform 1, [], 5), (.uniform 2, [.uniform 1], 5), (.uniform 3, [.uniform 2], 5),
    (.uniform 4, [.uniform 1], 5)]

/-- The source of this repository, commit by commit. -/
theorem late_source : late.source = Source.bare
    [(.uniform 1, [], 5), (.uniform 2, [.uniform 1], 5), (.uniform 3, [.uniform 2], 5),
      (.uniform 4, [.uniform 1], 5)] := by
  refine bare_source (by decide) fun id parents time member => ?_
  simp only [List.mem_cons, Prod.mk.injEq, List.not_mem_nil, or_false] at member
  rcases member with ⟨_, rfl, rfl⟩ | ⟨_, rfl, rfl⟩ | ⟨_, rfl, rfl⟩ | ⟨_, rfl, rfl⟩ <;> decide

/-- The node of the shared commit. -/
theorem late_shared : late.source.node (.uniform 1) = .ok ⟨.uniform 1, .zero, [], 5⟩ := by
  rw [late_source]
  exact Source.bare_node (by decide) (by decide)

/-- The node of the commit between the hidden one and the shared one. -/
theorem late_middle : late.source.node (.uniform 2) =
    .ok ⟨.uniform 2, .zero, [.uniform 1], 5⟩ := by
  rw [late_source]
  exact Source.bare_node (by decide) (by decide)

/-- The node of the hidden commit. -/
theorem late_hidden : late.source.node (.uniform 3) =
    .ok ⟨.uniform 3, .zero, [.uniform 2], 5⟩ := by
  rw [late_source]
  exact Source.bare_node (by decide) (by decide)

/-- The node of the shown commit. -/
theorem late_shown : late.source.node (.uniform 4) =
    .ok ⟨.uniform 4, .zero, [.uniform 1], 5⟩ := by
  rw [late_source]
  exact Source.bare_node (by decide) (by decide)

/-- Commits of the repository lead to themselves, to the shared one, and the hidden one
also to the one between. -/
theorem reached_late {tips : List ObjectId} {id : ObjectId}
    (inside : ∀ tip ∈ tips,
      tip = .uniform 1 ∨ tip = .uniform 2 ∨ tip = .uniform 3 ∨ tip = .uniform 4)
    (reached : late.source.Reached tips id) :
    id ∈ tips ∨ id = .uniform 1 ∨ id = .uniform 2 ∧ .uniform 3 ∈ tips := by
  refine Source.reached_least
    (fun id => id ∈ tips ∨ id = .uniform 1 ∨ id = .uniform 2 ∧ .uniform 3 ∈ tips)
    (fun tip member => .inl member) ?_ reached
  rintro child parent known step
  have listed : child = .uniform 1 ∨ child = .uniform 2 ∨
      child = .uniform 3 ∧ .uniform 3 ∈ tips ∨ child = .uniform 4 := by
    rcases known with member | rfl | ⟨rfl, _⟩
    · rcases inside child member with rfl | rfl | rfl | rfl
      · exact .inl rfl
      · exact .inr (.inl rfl)
      · exact .inr (.inr (.inl ⟨rfl, member⟩))
      · exact .inr (.inr (.inr rfl))
    · exact .inl rfl
    · exact .inr (.inl rfl)
  rcases listed with rfl | rfl | ⟨rfl, member⟩ | rfl
  · exact absurd ((Source.parent_iff late_shared).mp step) List.not_mem_nil
  · exact .inr (.inl (List.mem_singleton.mp ((Source.parent_iff late_middle).mp step)))
  · have named := List.mem_singleton.mp ((Source.parent_iff late_hidden).mp step)
    exact .inr (.inr ⟨named, member⟩)
  · exact .inr (.inl (List.mem_singleton.mp ((Source.parent_iff late_shown).mp step)))

/-- Every commit that the two sides reach has the same time. -/
theorem late_times {id : ObjectId} (reached : late.source.Reached [.uniform 3, .uniform 4] id) :
    ∃ node, late.source.node id = .ok node ∧ node.time = 5 := by
  rcases reached_late (by simp) reached with tip | rfl | ⟨rfl, _⟩
  · rcases List.mem_pair.mp tip with rfl | rfl
    · exact ⟨_, late_hidden, rfl⟩
    · exact ⟨_, late_shown, rfl⟩
  · exact ⟨_, late_shared, rfl⟩
  · exact ⟨_, late_middle, rfl⟩

/-- The digits of the shared commit as a name. -/
def sharedName : BranchName := ⟨"0101010101010101010101010101010101010101", by decide +kernel⟩

/-- The digits of the commit between as a name. -/
def middleName : BranchName := ⟨"0202020202020202020202020202020202020202", by decide +kernel⟩

/-- The digits of the hidden commit as a name. -/
def hiddenName : BranchName := ⟨"0303030303030303030303030303030303030303", by decide +kernel⟩

/-- The digits of the shown commit as a name. -/
def shownName : BranchName := ⟨"0404040404040404040404040404040404040404", by decide +kernel⟩

/-- The names are the digits of the four commits. -/
theorem late_names :
    sharedName.text = (ObjectId.uniform 1).toHex ∧ middleName.text = (ObjectId.uniform 2).toHex ∧
      hiddenName.text = (ObjectId.uniform 3).toHex ∧ shownName.text = (ObjectId.uniform 4).toHex :=
  ⟨rfl, rfl, rfl, rfl⟩

/-- The digits of the shared commit mean it. -/
theorem sharedName_means : late.meaning (.name sharedName) = .ok (.uniform 1) :=
  bare_means late_names.1

/-- The digits of the commit between mean it. -/
theorem middleName_means : late.meaning (.name middleName) = .ok (.uniform 2) :=
  bare_means late_names.2.1

/-- The digits of the hidden commit mean it. -/
theorem hiddenName_means : late.meaning (.name hiddenName) = .ok (.uniform 3) :=
  bare_means late_names.2.2.1

/-- The digits of the shown commit mean it. -/
theorem shownName_means : late.meaning (.name shownName) = .ok (.uniform 4) :=
  bare_means late_names.2.2.2

/-- Each of the four commits can be read in full. -/
theorem late_reads {id : ObjectId}
    (listed : id ∈ [ObjectId.uniform 1, .uniform 2, .uniform 3, .uniform 4]) :
    ∃ commit, late.source.commit id = .ok commit := by
  rw [late_source]
  exact Source.bare_commit (by decide) listed

/-- The log of a range, where every commit that either side reaches can be read. It shows
commits that `b` reaches, each once, and all of those that `a` does not reach. It shows
exactly these if and only if `a` leads to every commit that both reach through commits that
precede it in the order in which a walk from both gives them; so it does where each commit
that `a` reaches is newer than its parents.

Proof: however the range is spelled, the arguments start from one side and hide the other. The rest
is said of the walk with these marks, whose pass is printed commit by commit. -/
theorem run_between (between : Between repository a b texts marks)
    (readable : ∀ id, repository.source.Reached [a, b] id →
      ∃ commit, repository.source.commit id = .ok commit)
    (faithful : graph.Faithful repository.source) (oneline abbreviated coloured : Bool) :
    ∃ shown order,
      (run repository { revisions := texts, oneline, abbreviated } coloured graph).1 =
        reportOf repository.source { revisions := texts, oneline, abbreviated } coloured none true
          shown ∧
      (run repository { revisions := texts, oneline, abbreviated } coloured graph).1.failure =
        none ∧
      (∃ after kept, Pass repository.source
        (Walk.markAll repository.source (marks.map Mark.shown) {} {}).1
        (Walk.markAll repository.source (marks.map Mark.shown) {} {}).2 order none after kept) ∧
      (shown.map Node.id).Nodup ∧
      (∀ node ∈ shown, repository.source.Reached [b] node.id) ∧
      (∀ id, repository.source.Reached [b] id → ¬ repository.source.Reached [a] id →
        id ∈ shown.map Node.id) ∧
      ((∀ id, id ∈ shown.map Node.id ↔
          repository.source.Reached [b] id ∧ ¬ repository.source.Reached [a] id) ↔
        repository.source.Preceded [b] [a] order) ∧
      (repository.source.Descends [a] → repository.source.Preceded [b] [a] order) := by
  obtain ⟨started, hidden, sides⟩ := between.sides
  have narrower : ∀ id, repository.source.Reached (marks.map Mark.id) id →
      ∃ commit, repository.source.commit id = .ok commit := by
    rintro id ⟨root, member, path⟩
    exact readable id ⟨root, sides root member, path⟩
  obtain ⟨shown, order, report, reached, excludes, passOrder, exactly⟩ := run_excludes between.asks
    (by simp [started]) narrower faithful oneline abbreviated coloured
  rw [started, hidden] at excludes exactly
  refine ⟨shown, order, report, ?_, passOrder, excludes.distinct, excludes.started,
    excludes.complete, exactly, fun descends => exactly.mp (excludes.exact descends)⟩
  rw [report]
  exact (reportOf_readable _ coloured true shown fun node member =>
    narrower node.id (reached node member)).1

/-- The range from the shared commit to its child. -/
def childRange : String := sharedName.text ++ ".." ++ middleName.text

/-- How a range is read that ends in a child of its start. -/
theorem childRange_reads :
    RevisionArg.parse childRange = .ok (.range (.name sharedName) (.name middleName)) :=
  parse_digits_range late_names.1 late_names.2.1

/-- What the range from the shared commit to its child shows. -/
theorem run_between_late :
    ∃ shown,
      (run late { revisions := [childRange] } false {}).1 =
        reportOf late.source { revisions := [childRange] } false none true shown ∧
      .uniform 2 ∈ shown.map Node.id := by
  have between : Between late (.uniform 1) (.uniform 2) [childRange]
      [.hide (.uniform 1), .start (.uniform 2)] :=
    .range childRange_reads sharedName_means middleName_means
  have readable : ∀ id, late.source.Reached [.uniform 1, .uniform 2] id →
      ∃ commit, late.source.commit id = .ok commit := by
    intro id reached
    rcases reached_late (by simp) reached with tip | rfl | ⟨rfl, _⟩
    · rcases List.mem_pair.mp tip with rfl | rfl
      · exact late_reads (by simp)
      · exact late_reads (by simp)
    · exact late_reads (by simp)
    · exact late_reads (by simp)
  obtain ⟨shown, _, report, _, _, _, _, complete, _⟩ :=
    run_between between readable (Graph.faithful_empty late.source) false false false
  refine ⟨shown, report, complete _ (Source.reached_root List.mem_cons_self) fun reached => ?_⟩
  rcases reached_late (by simp) reached with tip | shared | ⟨_, impossible⟩
  · exact absurd tip (by decide)
  · exact absurd shared (by decide)
  · exact absurd impossible (by decide)

/-- A log of a commit without what another one reaches starts from the one, hides the other and
prints what the walk gives. -/
theorem run_shownFirst {source : Source} {shown hidden : String} {newer older : BranchName}
    (given : repository.source = source)
    (readsShown : RevisionArg.parse shown = .ok (.included (.name newer)))
    (readsHidden : RevisionArg.parse hidden = .ok (.excluded (.name older)))
    (meansNewer : repository.meaning (.name newer) = .ok b)
    (meansOlder : repository.meaning (.name older) = .ok a) :
    (run repository { revisions := [shown, hidden], oneline := true } false {}).1 =
      match Walk.markStart source b { filter := .all [] } {} with
      | (.error fault, _, _) => .failed (.fault fault)
      | (.ok (), walk, graph) =>
        match Walk.hide source a walk graph with
        | (.error fault, _, _) => .failed (.fault fault)
        | (.ok (), walk, graph) =>
          (printWithin source { revisions := [shown, hidden], oneline := true } false
            ObjectId.total true walk graph).1 := by
  have namesNewer : repository.resolveName newer = .ok b := meansNewer
  have namesOlder : repository.resolveName older = .ok a := meansOlder
  have plain : LogOptions.filter { revisions := [shown, hidden], oneline := true } =
      .ok (.all []) := rfl
  subst given
  simp only [run, plain, markArguments, readsShown, readsHidden, markArgument, startFrom, hideFrom,
    withRevision, Repository.resolve, namesNewer, namesOlder]
  -- The bound on what is printed stays a variable, so that nothing counts down from it.
  generalize ObjectId.total = most
  rcases Walk.markStart repository.source b { filter := .all [] } {} with ⟨_ | ⟨⟩, walk, graph⟩
  · rfl
  · simp only [Except.mapError]
    rcases Walk.hide repository.source a walk graph with ⟨_ | ⟨⟩, walk, graph⟩
    · rfl
    · rfl

/-- The shown commit, without what the hidden one reaches. -/
def shownArguments : List String := [shownName.text, "^" ++ hiddenName.text]

/-- The digits of the shown commit as an argument. -/
theorem shownName_reads :
    RevisionArg.parse shownName.text = .ok (.included (.name shownName)) :=
  RevisionArg.parse_included (parse_digits late_names.2.2.2)

/-- The digits of the hidden commit behind a caret, as an argument. -/
theorem hiddenName_reads :
    RevisionArg.parse ("^" ++ hiddenName.text) = .ok (.excluded (.name hiddenName)) :=
  RevisionArg.parse_excluded (parse_digits late_names.2.2.1)

/-- What the log of the two sides prints, by evaluation. -/
theorem late_printed :
    (run late { revisions := shownArguments, oneline := true } false {}).1.printed =
      [shownName.text ++ " \n", sharedName.text ++ " \n"] := by
  rw [shownArguments, run_shownFirst late_source shownName_reads hiddenName_reads shownName_means
    hiddenName_means]
  decide +kernel

/-- The shared commit is shown, although the hidden one reaches it and no commit is older
than its parents: it leaves the queue before the commit between them does. -/
theorem late_shows_shared :
    Between late (.uniform 3) (.uniform 4) shownArguments
        [.start (.uniform 4), .hide (.uniform 3)] ∧
      (∀ id, late.source.Reached [.uniform 3, .uniform 4] id → late.source.Resolves id) ∧
      (∀ child parent, late.source.Reached [.uniform 3, .uniform 4] child.id →
        late.source.node child.id = .ok child → late.source.node parent.id = .ok parent →
        parent.id ∈ child.parents → parent.time ≤ child.time) ∧
      late.source.Reached [.uniform 3] (.uniform 1) ∧
      (run late { revisions := shownArguments, oneline := true } false {}).1.printed =
        [shownName.text ++ " \n", sharedName.text ++ " \n"] := by
  refine ⟨?_, ?_, ?_, ?_, late_printed⟩
  · exact .shownFirst shownName_reads hiddenName_reads hiddenName_means shownName_means
  · intro id reached
    obtain ⟨node, resolved, _⟩ := late_times reached
    exact ⟨node, resolved⟩
  · intro child parent reached resolves resolvesParent member
    obtain ⟨node, resolved, time⟩ := late_times reached
    obtain ⟨above, resolvedParent, timeParent⟩ :=
      late_times (Source.reached_step reached ((Source.parent_iff resolves).mpr member))
    obtain rfl := Except.ok.inj (resolves.symm.trans resolved)
    obtain rfl := Except.ok.inj (resolvesParent.symm.trans resolvedParent)
    rw [time, timeParent]
  · have middle : late.source.Reached [.uniform 3] (.uniform 2) :=
      Source.reached_step (Source.reached_root List.mem_cons_self)
        ((Source.parent_iff late_hidden).mpr List.mem_cons_self)
    exact Source.reached_step middle ((Source.parent_iff late_middle).mpr List.mem_cons_self)

end Log

end Ancestry
