import Ancestry.Proofs.Filter.Slices
import Ancestry.Proofs.Log.Ranges
import Ancestry.Proofs.Walk.Lifecycle
import Ancestry.Proofs.Walk.Precedence

/-!
# Logs by pages

The arguments of a log mark the same under every filter and in every order. So logs of the same
revisions follow one course, from which each selects and arranges on its own. A log by pages
selects a page of what the log without pages selects by time, whatever its other filters are.
Where an order is asked for it arranges this page, and nothing that is not on it.
-/

namespace Ancestry

namespace Log

open Walk (Pass)

variable {repository : Repository} {walk : Walk} {graph store : Graph} {options : LogOptions}
  {given others : List Node} {ending ended : Option Fault}

/-- The walk of a log gives some commits and ends in some way. -/
def Shows (repository : Repository) (options : LogOptions) (graph : Graph) (given : List Node)
    (ending : Option Fault) : Prop :=
  ∃ filter walk store after kept,
    options.filter = .ok filter ∧
      markArguments repository false options.revisions { filter, order := options.order } graph =
        (.ok (), walk, store) ∧
      Pass repository.source walk store given ending after kept

/-- It gives nothing else and ends in no other way. -/
theorem Shows.unique (shows : Shows repository options graph given ending)
    (other : Shows repository options graph others ended) : given = others ∧ ending = ended := by
  obtain ⟨filter, walk, store, after, kept, chosen, ran, pass⟩ := shows
  obtain ⟨again, _, _, _, _, chosenAgain, ranAgain, passAgain⟩ := other
  obtain rfl : filter = again := Except.ok.inj (chosen.symm.trans chosenAgain)
  rw [ran] at ranAgain
  obtain ⟨_, rfl, rfl⟩ := ranAgain
  obtain ⟨same, ends, _⟩ := pass.unique passAgain
  exact ⟨same, ends⟩

/-- Logs of the same revisions follow one course, from which each selects what its filter leaves
and presents it in its order. -/
theorem exists_course_of_shows (shows : Shows repository options graph given ending)
    (faithful : graph.Faithful repository.source) :
    ∃ shown last,
      (∀ node ∈ shown, repository.source.node node.id = .ok node) ∧ (shown.map Node.id).Nodup ∧
        ∀ (same : LogOptions) (filter : Filter) (store : Graph),
          same.revisions = options.revisions → same.filter = .ok filter →
            store.Faithful repository.source →
              Shows repository same store
                (same.order.presented (filter.select repository.source last shown).1
                  (filter.select repository.source last shown).2).1
                (same.order.presented (filter.select repository.source last shown).1
                  (filter.select repository.source last shown).2).2 := by
  obtain ⟨filter, walk, _, _, _, _, ran, _⟩ := shows
  obtain ⟨outcome, marks, determines⟩ :=
    markArguments_determined repository false options.revisions
  have new := Walk.marked_new repository.source
  obtain rfl : outcome = .ok () := by
    obtain ⟨_, _, again, _⟩ := determines _ graph [] [] (new filter options.order) faithful
    rw [again] at ran
    exact (Prod.mk.inj ran).1
  obtain ⟨plain, _, _, _, tells⟩ :=
    determines {} {} [] [] (new .everything {}) (Graph.faithful_empty repository.source)
  have marked := tells.marked (new .everything {})
  obtain ⟨shown, last, course⟩ := Walk.exists_course marked.consistent
  refine ⟨shown, last, fun node member => (course.reached marked.settled node member).1,
    course.distinct marked.consistent, ?_⟩
  intro same filter store revisions chosen faithful
  obtain ⟨walk, between, ran, still, told⟩ :=
    determines { filter, order := same.order } store [] [] (new filter same.order) faithful
  have front := tells.front told rfl (Walk.choice_state {} filter same.order).toSameFront
  have other := told.marked (new filter same.order)
  have state := front.state marked.settled other.settled
  obtain ⟨after, kept, pass, _⟩ := (course.congr state).presents other told.rest.output still
  rw [told.rest.order, told.rest.filter] at pass
  exact ⟨filter, walk, between, after, kept, chosen, revisions ▸ ran, pass⟩

/-- What the walk of a log gives is printed. -/
theorem run_of_shows (shows : Shows repository options graph given ending)
    (distinct : (given.map Node.id).Nodup) (coloured : Bool) :
    (run repository options coloured graph).1 =
      reportOf repository.source options coloured ending true given := by
  obtain ⟨filter, walk, store, after, kept, chosen, ran, pass⟩ := shows
  have short : given.length ≤ ObjectId.total := by
    simpa using ObjectId.length_le_total (given.map Node.id) distinct
  obtain ⟨left, printed⟩ := printWithin_pass options coloured true ObjectId.total pass short
  simp only [run, chosen, ran, printed]

/-- A log that asks for no pages, with its walk by time, which ends without a fault. The same log
by pages gives a page of what that gives, in the order that is asked for, and prints it. By time
it is the page itself, reversed it is the page back to front. In a history without cycles the
topological order is one of the same commits in which each comes after its children.

Proof: the walk by time is the only one, so that it gives what the filter selects from the course.
The paged log selects from the same course with two counters on top, which cut out the page, and
presents that in its order. -/
theorem paged_slice (options : LogOptions) (unskipped : options.skip = none)
    (unlimited : options.maxCount = none) (faithful : graph.Faithful repository.source)
    (still : store.Faithful repository.source)
    (shows : Shows repository { options with order := {} } graph given none)
    (skip count : Option Nat) :
    Shows repository (options.paged skip count) store
        (options.order.arranged (page skip count given)) none ∧
      (∀ coloured, (run repository (options.paged skip count) coloured store).1 =
        reportOf repository.source (options.paged skip count) coloured none true
          (options.order.arranged (page skip count given))) ∧
      (options.order = {} →
        options.order.arranged (page skip count given) = page skip count given) ∧
      (options.order = { reversed := true } →
        options.order.arranged (page skip count given) = (page skip count given).reverse) ∧
      (options.order.topological = true → repository.source.Acyclic (given.map Node.id) →
        ∃ sorted : List Node, sorted.Perm (page skip count given) ∧ Topological.Ordered sorted ∧
          options.order.arranged (page skip count given) =
            if options.order.reversed then sorted.reverse else sorted) := by
  obtain ⟨shown, last, resolved, apart, course⟩ := exists_course_of_shows shows faithful
  have byTime := shows
  obtain ⟨filter, _, _, _, _, chosen, _, _⟩ := shows
  -- The walk by time is the only one, so that it gives what the filter selects.
  obtain ⟨same, ends⟩ := byTime.unique (course _ filter graph rfl chosen faithful)
  rw [Order.presented_byTime rfl] at same ends
  have selects : filter.select repository.source last shown = (given, none) :=
    Prod.ext same.symm ends.symm
  have sublist : given.Sublist shown := same ▸ filter.select_sublist shown
  obtain ⟨counting, paged, selected⟩ := options.select_paged unskipped unlimited chosen selects
    skip count
  have pages := course (options.paged skip count) counting store rfl paged still
  rw [selected, Order.presented_none] at pages
  have inside := page_sublist skip count given
  have distinct : ((page skip count given).map Node.id).Nodup :=
    ((inside.trans sublist).map Node.id).nodup apart
  refine ⟨pages, run_of_shows pages (options.order.arranged_distinct distinct), ?_, ?_, ?_⟩
  · intro plain
    rw [plain]
    rfl
  · intro backward
    rw [backward]
    rfl
  · intro topological acyclic
    have known : ∀ node ∈ page skip count given, repository.source.node node.id = .ok node ∧
        repository.source.Reached (given.map Node.id) node.id := by
      intro node member
      exact ⟨resolved node ((inside.trans sublist).mem member),
        Source.reached_root (List.mem_map_of_mem (inside.mem member))⟩
    obtain ⟨perm, ordered, _⟩ := Topological.sort_whole acyclic distinct known
    refine ⟨_, perm, ordered, ?_⟩
    rw [Order.arranged, if_pos topological]

/-- The log of one commit is a walk that starts from it. -/
theorem shows_started {text : String} {name : BranchName} {id : ObjectId} {after : Walk}
    {kept : Graph} (reads : RevisionArg.parse text = .ok (.included (.name name)))
    (means : repository.meaning (.name name) = .ok id)
    (started : Walk.markStart repository.source id { filter := .all [] } {} = (.ok (), walk, store))
    (pass : Pass repository.source walk store given ending after kept) :
    Shows repository { revisions := [text] } {} given ending := by
  have names : repository.resolveName name = .ok id := means
  have marked : startFrom repository (.name name) { filter := .all [] } {} =
      (.ok (), walk, store) := by
    simp only [startFrom, withRevision, Repository.resolve, names, started]
    rfl
  have ran : markArguments repository false [text] { filter := .all [] } {} =
      (.ok (), walk, store) := by
    simp only [markArguments, reads, markArgument, marked]
    rfl
  exact ⟨.all [], walk, store, after, kept, rfl, ran, pass⟩

/-- The walk of the shown commit gives it and the shared one. -/
theorem late_shows :
    Shows late { revisions := [shownName.text] } {}
      [⟨.uniform 4, .zero, [.uniform 1], 5⟩, ⟨.uniform 1, .zero, [], 5⟩] none := by
  have started : (Walk.markStart late.source (.uniform 4) { filter := .all [] } {}).1 = .ok () := by
    rw [late_source]
    exact ok_of_toOption (by decide +kernel)
  obtain ⟨after, kept, pass⟩ : ∃ after kept, Pass late.source
      (Walk.markStart late.source (.uniform 4) { filter := .all [] } {}).2.1
      (Walk.markStart late.source (.uniform 4) { filter := .all [] } {}).2.2
      [⟨.uniform 4, .zero, [.uniform 1], 5⟩, ⟨.uniform 1, .zero, [], 5⟩] none after kept := by
    rw [late_source]
    exact Pass.of_answers 3 (by decide) (by decide +kernel)
  rcases ran : Walk.markStart late.source (.uniform 4) { filter := .all [] } {} with
    ⟨result, walk, store⟩
  rw [ran] at started pass
  obtain rfl : result = .ok () := started
  exact shows_started shownName_reads shownName_means ran pass

/-- A page of one commit is the latest one. Reversing the log does not make it the earliest. -/
theorem paged_slice_late :
    Shows late { revisions := [shownName.text] } {}
        [⟨.uniform 4, .zero, [.uniform 1], 5⟩, ⟨.uniform 1, .zero, [], 5⟩] none ∧
      Shows late
        { revisions := [shownName.text], maxCount := some 1, order := { reversed := true } } {}
        [⟨.uniform 4, .zero, [.uniform 1], 5⟩] none := by
  have faithful := Graph.faithful_empty late.source
  have pages := paged_slice { revisions := [shownName.text], order := { reversed := true } } rfl rfl
    faithful faithful late_shows none (some 1)
  exact ⟨late_shows, pages.1⟩

end Log

end Ancestry
