import Ancestry.Proofs.Walk.Marking

/-!
# Settings of a walk

Before its pass a walk can be told of commits, and its filter and its order can be chosen,
in any sequence. The marks are those of the commits alone, and of several filters or
orders the last one counts.
-/

namespace Ancestry

/-- What can be asked of a walk before its pass. -/
inductive Setting where
  | mark (mark : Mark)
  | filter (filter : Filter)
  | order (order : Order)

namespace Setting

/-- The mark that is set. -/
def mark? : Setting → Option Mark
  | .mark told => some told
  | _ => none

/-- The filter that is chosen. -/
def filter? : Setting → Option Filter
  | .filter chosen => some chosen
  | _ => none

/-- The order that is chosen. -/
def order? : Setting → Option Order
  | .order chosen => some chosen
  | _ => none

/-- Asking for a setting. -/
def action (source : Source) : Setting → Walk.Action Unit
  | .mark told => told.action source
  | .filter chosen => Walk.setFilter chosen
  | .order chosen => Walk.setOrder chosen

/-- All marks in their sequence. -/
def marks (settings : List Setting) : List Mark := settings.filterMap mark?

/-- The filter that was chosen last. -/
def filterOr (first : Filter) (settings : List Setting) : Filter :=
  (settings.filterMap filter?).getLast?.getD first

/-- The order that was chosen last. -/
def orderOr (first : Order) (settings : List Setting) : Order :=
  (settings.filterMap order?).getLast?.getD first

/-- The filter of a new walk with some settings. -/
def filterOf (settings : List Setting) : Filter := filterOr .everything settings

/-- The order of a new walk with some settings. -/
def orderOf (settings : List Setting) : Order := orderOr {} settings

/-- Commits that a walk with some settings is to hide. -/
def hides (settings : List Setting) : List ObjectId := (marks settings).filterMap Mark.hidden

/-- Commits from which a walk with some settings starts or which it is to hide. -/
def commits (settings : List Setting) : List ObjectId := (marks settings).map Mark.id

end Setting

namespace Walk

variable {source : Source} {walk : Walk} {graph : Graph} {roots hidden : List ObjectId}

/-- One setting after another, also after one that fails. -/
def configure (source : Source) : List Setting → Walk → Graph → Walk × Graph
  | [], walk, graph => (walk, graph)
  | setting :: rest, walk, graph =>
    match setting.action source walk graph with
    | (_, walk, graph) => configure source rest walk graph

/-- A walk with settings, ready for its pass. -/
structure Ready (source : Source) (settings : List Setting) (before after : Walk)
    (roots hidden : List ObjectId) : Prop where
  marked : after.Marked source (roots ++ Mark.roots source (Setting.marks settings))
    (hidden ++ Mark.veiled source (Setting.marks settings))
  filter : after.filter = Setting.filterOr before.filter settings
  order : after.order = Setting.orderOr before.order settings
  output : after.output = before.output

/-- Settings do what they say, in whatever sequence they come. -/
theorem configure_ready (settings : List Setting) (marked : walk.Marked source roots hidden)
    (faithful : graph.Faithful source) :
    Ready source settings walk (configure source settings walk graph).1 roots hidden ∧
      (configure source settings walk graph).2.Faithful source := by
  induction settings generalizing walk graph roots hidden with
  | nil =>
    refine ⟨⟨?_, rfl, rfl, rfl⟩, faithful⟩
    simpa [configure, Setting.marks, Mark.roots, Mark.veiled, Mark.resolving] using marked
  | cons setting rest inductionHypothesis =>
    cases setting with
    | mark mark =>
      obtain ⟨after, kept, ran, stillFaithful, told⟩ := action_told mark marked faithful
      obtain ⟨ready, last⟩ := inductionHypothesis (told.marked marked) stillFaithful
      simp only [configure, Setting.action, ran]
      refine ⟨⟨?_, ?_, ?_, ?_⟩, last⟩
      · have all := ready.marked
        rw [List.append_assoc, List.append_assoc, ← Mark.roots_cons, ← Mark.veiled_cons] at all
        exact all
      · rw [ready.filter, told.rest.filter]
        rfl
      · rw [ready.order, told.rest.order]
        rfl
      · rw [ready.output, told.rest.output]
    | filter filter =>
      have chosen : { walk with filter }.Marked source roots hidden :=
        marked.choose filter walk.order
      obtain ⟨ready, last⟩ := inductionHypothesis chosen faithful
      have ran : setFilter filter walk graph = (.ok (), { walk with filter }, graph) :=
        if_pos marked.phase
      simp only [configure, Setting.action, ran]
      refine ⟨⟨ready.marked, ?_, ready.order, ready.output⟩, last⟩
      rw [ready.filter]
      simp [Setting.filterOr, Setting.filter?, List.getLast?_cons]
    | order order =>
      have chosen : { walk with order }.Marked source roots hidden :=
        marked.choose walk.filter order
      obtain ⟨ready, last⟩ := inductionHypothesis chosen faithful
      have ran : setOrder order walk graph = (.ok (), { walk with order }, graph) :=
        if_pos marked.phase
      simp only [configure, Setting.action, ran]
      refine ⟨⟨ready.marked, ready.filter, ?_, ready.output⟩, last⟩
      rw [ready.order]
      simp [Setting.orderOr, Setting.order?, List.getLast?_cons]

/-- A new walk with settings. -/
theorem configure_new (settings : List Setting) (faithful : graph.Faithful source) :
    Ready source settings {} (configure source settings {} graph).1 [] [] ∧
      (configure source settings {} graph).2.Faithful source :=
  configure_ready settings (marked_new source .everything {}) faithful

end Walk

end Ancestry
