import Ancestry.Proofs.Filter.Questions
import Ancestry.Proofs.Text.Cutting
import Ancestry.Proofs.Trees.Counting
import Ancestry.Proofs.Trees.Origins

/-!
# Filters that read no messages

Two sources may differ in what commits say and in nothing else. A filter that reads no messages
decides alike about them, with one exception: occurrences are counted in whatever object stands in
a tree as a file, and if that is a commit its message counts. Where no needle of the filter is
moved by that, the filter cannot tell the sources apart, and it keeps no message in the graph.
-/

namespace Ancestry

/-- Lines behind an empty one do not belong to a header. -/
theorem PartialHeader.readLines_ended (header : PartialHeader) (lines rest others : List Bytes) :
    header.readLines (lines ++ [] :: rest) = header.readLines (lines ++ [] :: others) := by
  induction lines generalizing header with
  | nil => rfl
  | cons line lines inductionHypothesis =>
    simp only [List.cons_append, readLines, inductionHypothesis]

/-- The message is no matter for the header. -/
theorem CommitHeader.parse_message (head message other : Bytes) :
    parse (head ++ 0x0A :: 0x0A :: message) = parse (head ++ 0x0A :: 0x0A :: other) := by
  have ended (message : Bytes) : Pieces.split 0x0A (head ++ 0x0A :: 0x0A :: message) =
      Pieces.split 0x0A head ++ [] :: Pieces.split 0x0A message := by
    rw [Pieces.split_cut, Pieces.split, if_pos rfl]
  rw [parse, parse, ended, ended, PartialHeader.readLines_ended]

namespace Source

variable {left right : Source}

/-- The same objects, but for commits of which only the headers are the same. -/
def Reworded (left right : Source) : Prop :=
  ∀ id, right.read id = left.read id ∨ ∃ first second,
    left.read id = .ok ⟨.commit, first⟩ ∧ right.read id = .ok ⟨.commit, second⟩ ∧
      CommitHeader.parse second = CommitHeader.parse first

/-- Nothing is said differently by the same source. -/
theorem Reworded.refl (source : Source) : Reworded source source := fun _ => .inl rfl

/-- The first object of an identifier is the one that is read. -/
theorem read_storing (id place : ObjectId) (object : Object) (objects : List (ObjectId × Object)) :
    (storing ((place, object) :: objects)).read id =
      if id = place then .ok object else (storing objects).read id := by
  simp only [storing, List.lookup_cons]
  by_cases here : id = place
  · subst here
    rw [if_pos rfl, beq_self_eq_true]
  · rw [if_neg here, beq_eq_false_iff_ne.mpr here]

/-- One commit among other objects that says something else. -/
theorem reworded_storing (head first second : Bytes) (place : ObjectId)
    (objects : List (ObjectId × Object)) :
    Reworded (storing ((place, ⟨.commit, head ++ 0x0A :: 0x0A :: first⟩) :: objects))
      (storing ((place, ⟨.commit, head ++ 0x0A :: 0x0A :: second⟩) :: objects)) := by
  intro id
  rw [read_storing, read_storing]
  by_cases here : id = place
  · rw [if_pos here, if_pos here]
    exact .inr ⟨_, _, rfl, rfl, CommitHeader.parse_message head second first⟩
  · rw [if_neg here, if_neg here]
    exact .inl rfl

/-- Sources that only say different things have the same headers. -/
theorem Reworded.header (reworded : Reworded left right) (id : ObjectId) :
    right.header id = left.header id := by
  simp only [Source.header, readCommit, payloadOf]
  obtain same | ⟨first, second, old, new, parsed⟩ := reworded id
  · rw [same]
  · simp only [old, new, if_true, parsed]

/-- Entries are those of the same trees. -/
theorem Reworded.entries (reworded : Reworded left right) (id : ObjectId) :
    right.entries id = left.entries id := by
  have level (most : Nat) (id : ObjectId)
      (below : ∀ less, most = less + 1 → right.entriesWithin less = left.entriesWithin less) :
      right.entriesWithin most id = left.entriesWithin most id := by
    rw [entriesWithin, entriesWithin]
    obtain same | ⟨first, second, old, new, parsed⟩ := reworded id
    · rw [same]
      split
      · rfl
      · rfl
      · split
        · rfl
        · cases most with
          | zero => rfl
          | succ less => exact congrFun (below less rfl) _
      · rfl
    · simp only [old, new, parsed]
      split
      · rfl
      · cases most with
        | zero => rfl
        | succ less => exact congrFun (below less rfl) _
  have within (most : Nat) : right.entriesWithin most = left.entriesWithin most := by
    induction most with
    | zero => exact funext fun id => level 0 id nofun
    | succ most inductionHypothesis =>
      refine funext fun id => level (most + 1) id fun less same => ?_
      obtain rfl := Nat.succ.inj same
      exact inductionHypothesis
  exact congrFun (within ObjectId.total) id

end Source

namespace Changes

/-- So are the changes between two trees. -/
theorem between_reworded {left right : Source} (reworded : Source.Reworded left right)
    (old : Option ObjectId) (new : ObjectId) : between right old new = between left old new := by
  have lists (tree : Option ObjectId) : listing right tree = listing left tree := by
    cases tree with
    | none => rfl
    | some id => rw [listing, listing, reworded.entries]
  have within (most : Nat) : compareWithin right most = compareWithin left most := by
    induction most with
    | zero =>
      funext old new above changes
      simp only [compareWithin, lists]
    | succ most inductionHypothesis =>
      funext old new above changes
      simp only [compareWithin, lists, inductionHypothesis]
  rw [between, between, within]

end Changes

/-- A needle occurs as often in both commits of every identifier under which some tree has a
file. -/
def Needle.Overlooks (left right : Source) (needle : Needle) : Prop :=
  ∀ id first second, left.NamesFile id → left.read id = .ok ⟨.commit, first⟩ →
    right.read id = .ok ⟨.commit, second⟩ → needle.count second = needle.count first

/-- What one commit says moves no needle that occurs as often before and after. -/
theorem Needle.overlooks_storing {needle : Needle} {first second : Bytes}
    (same : needle.count second = needle.count first) (place : ObjectId)
    (objects : List (ObjectId × Object)) :
    needle.Overlooks (.storing ((place, ⟨.commit, first⟩) :: objects))
      (.storing ((place, ⟨.commit, second⟩) :: objects)) := by
  intro id one other _ old new
  rw [Source.read_storing] at old new
  by_cases here : id = place
  · rw [if_pos here] at old new
    cases old
    cases new
    exact same
  · rw [if_neg here] at old new
    rw [old] at new
    cases new
    rfl

namespace Graph

variable {left right : Source}

/-- A graph resolves commits alike over sources that only say different things. -/
theorem resolve_reworded (reworded : Source.Reworded left right) (graph : Graph) (id : ObjectId) :
    graph.resolve right id = graph.resolve left id := by
  simp only [resolve, reworded.header]

/-- Resolving a commit keeps no message. -/
theorem resolve_messages (source : Source) (graph : Graph) (id : ObjectId) :
    (graph.resolve source id).2.messages = graph.messages := by
  unfold resolve
  cases graph.headers[id]? with
  | some header => rfl
  | none => cases source.header id <;> rfl

end Graph

namespace Pickaxe

variable {left right : Source} {needle : Needle}

/-- A needle is found as often in a file that one of the sources knows. -/
theorem occurrences_reworded (reworded : Source.Reworded left right)
    (overlooks : needle.Overlooks left right) {id : ObjectId} (known : left.Knows id) :
    occurrences right needle id = occurrences left needle id := by
  rw [occurrences, occurrences]
  by_cases zero : id.isZero = true
  · rw [if_pos zero, if_pos zero]
  · rw [if_neg zero, if_neg zero]
    obtain same | ⟨first, second, old, new, _⟩ := reworded id
    · rw [Source.payload, Source.payload, same]
    · obtain rfl | file := known
      · exact absurd (by decide) zero
      · have counted := overlooks id first second file old new
        simp only [Source.payload, old, new, Except.map, counted]

/-- Whether a needle occurs more or less often in one of some changes is the same for both
sources. -/
theorem anyDiffers_reworded (reworded : Source.Reworded left right)
    (overlooks : needle.Overlooks left right) {changes : List (Path × Change)}
    (known : ∀ pair ∈ changes, pair.2.Known left) :
    anyDiffers right needle changes = anyDiffers left needle changes := by
  induction changes with
  | nil => rfl
  | cons pair rest inductionHypothesis =>
    have first := known pair List.mem_cons_self
    have later := inductionHypothesis fun other member =>
      known other (List.mem_cons_of_mem _ member)
    simp only [anyDiffers, occurrences_reworded reworded overlooks first.old,
      occurrences_reworded reworded overlooks first.new, later]

/-- Two trees differ for a needle over one source where they do over the other. -/
theorem treesDiffer_reworded (reworded : Source.Reworded left right)
    (overlooks : needle.Overlooks left right) (old : Option ObjectId) (new : ObjectId) :
    treesDiffer right needle old new = treesDiffer left needle old new := by
  rw [treesDiffer, treesDiffer, Changes.between_reworded reworded]
  cases compared : Changes.between left old new with
  | error fault => rfl
  | ok changes => exact anyDiffers_reworded reworded overlooks (Changes.between_known compared)

/-- Whether a commit touches the needle, and what is read for that through the graph. -/
theorem touches_reworded (reworded : Source.Reworded left right)
    (overlooks : needle.Overlooks left right) (graph : Graph) (node : Node) :
    touches right needle graph node = touches left needle graph node := by
  have parents (ids : List ObjectId) (graph : Graph) :
      anyParentDiffers right needle node.tree ids graph =
        anyParentDiffers left needle node.tree ids graph := by
    induction ids generalizing graph with
    | nil => rfl
    | cons parent rest inductionHypothesis =>
      simp only [anyParentDiffers, Graph.resolve_reworded reworded,
        treesDiffer_reworded reworded overlooks, inductionHypothesis]
  rw [touches, touches, treesDiffer_reworded reworded overlooks, parents]

/-- No message is kept for that. -/
theorem touches_messages (source : Source) (needle : Needle) (graph : Graph) (node : Node) :
    (touches source needle graph node).2.messages = graph.messages := by
  have parents (ids : List ObjectId) (graph : Graph) :
      (anyParentDiffers source needle node.tree ids graph).2.messages = graph.messages := by
    induction ids generalizing graph with
    | nil => rfl
    | cons parent rest inductionHypothesis =>
      have kept := Graph.resolve_messages source graph parent
      rcases resolved : graph.resolve source parent with ⟨fault | other, store⟩
      · rw [resolved] at kept
        simpa only [anyParentDiffers, resolved] using kept
      · rw [resolved] at kept
        simp only [anyParentDiffers, resolved]
        rcases treesDiffer source needle (some other.tree) node.tree with fault | _ | _
        · exact kept
        · exact (inductionHypothesis store).trans kept
        · exact kept
  rw [touches]
  split
  · rfl
  · exact parents node.parents graph

end Pickaxe

namespace Filter

variable {left right source : Source} {filter other : Filter} {node : Node} {graph : Graph}

/-- The needles that a filter counts. -/
def needles : Filter → List Needle
  | .negation inner => inner.needles
  | .both left right => left.needles ++ right.needles
  | .oneOf left right => left.needles ++ right.needles
  | .occurrences needle => [needle]
  | _ => []

/-- The filter reads no message, and no needle is moved by one. -/
structure Overlooks (left right : Source) (filter : Filter) : Prop where
  silent : filter.needsMessage = false
  counts : ∀ needle ∈ filter.needles, needle.Overlooks left right

/-- Over one source it is enough that no message is read. -/
theorem Overlooks.of_silent (source : Source) (silent : filter.needsMessage = false) :
    filter.Overlooks source source := by
  refine ⟨silent, fun needle _ id first second _ old new => ?_⟩
  rw [old] at new
  cases new
  rfl

/-- To be fresh is a matter of counters, not of needles. -/
theorem needles_fresh (filter : Filter) : filter.fresh.needles = filter.needles := by
  induction filter with
  | negation inner inductionHypothesis => exact inductionHypothesis
  | both left right leftFresh rightFresh | oneOf left right leftFresh rightFresh =>
    simp only [fresh, needles, leftFresh, rightFresh]
  | _ => rfl

/-- What a filter has counted is no matter. -/
theorem Overlooks.of_fresh (overlooks : filter.Overlooks left right)
    (same : other.fresh = filter.fresh) : other.Overlooks left right where
  silent := by rw [← needsMessage_fresh, same, needsMessage_fresh, overlooks.silent]
  counts := by
    rw [← needles_fresh, same, needles_fresh]
    exact overlooks.counts

/-- A filter that has answered overlooks what it overlooked before. -/
theorem Overlooks.following (overlooks : filter.Overlooks left right) (source : Source)
    (node : Node) (graph : Graph) : (filter.judge source node graph).2.1.Overlooks left right :=
  overlooks.of_fresh (judge_fresh source node filter graph)

/-- Both sides of a filter of two. -/
theorem overlooks_sides {first second : Filter} (silent :
      (first.needsMessage || second.needsMessage) = false)
    (counts : ∀ needle ∈ first.needles ++ second.needles, needle.Overlooks left right) :
    first.Overlooks left right ∧ second.Overlooks left right := by
  obtain ⟨one, two⟩ := Bool.or_eq_false_iff.mp silent
  exact ⟨⟨one, fun needle member => counts needle (List.mem_append_left _ member)⟩,
    ⟨two, fun needle member => counts needle (List.mem_append_right _ member)⟩⟩

/-- A filter decides alike over both sources, and it reads the same through the graph. -/
theorem judge_reworded (reworded : Source.Reworded left right)
    (overlooks : filter.Overlooks left right) (node : Node) (graph : Graph) :
    filter.judge right node graph = filter.judge left node graph := by
  induction filter generalizing graph with
  | everything | nothing | noMerges | window | atMost | skip => rfl
  | message => cases overlooks.silent
  | occurrences needle =>
    have counts := overlooks.counts needle List.mem_cons_self
    simp only [judge, Pickaxe.touches_reworded reworded counts]
  | negation inner inductionHypothesis =>
    have inside : inner.Overlooks left right := ⟨overlooks.silent, overlooks.counts⟩
    simp only [judge, inductionHypothesis inside]
  | both first second firstSame secondSame | oneOf first second firstSame secondSame =>
    obtain ⟨one, two⟩ := overlooks_sides overlooks.silent overlooks.counts
    simp only [judge, firstSame one, secondSame two]

/-- It keeps no message in the graph. -/
theorem judge_messages (source : Source) (silent : filter.needsMessage = false) (node : Node)
    (graph : Graph) : (filter.judge source node graph).2.2.messages = graph.messages := by
  induction filter generalizing graph with
  | everything | nothing | noMerges | window => rfl
  | atMost limit seen => by_cases full : limit ≤ seen <;> simp [judge, full]
  | skip count seen => by_cases early : seen < count <;> simp [judge, early]
  | message => cases silent
  | occurrences needle => exact Pickaxe.touches_messages source needle graph node
  | negation inner inductionHypothesis => exact inductionHypothesis silent graph
  | both first second firstKeeps secondKeeps =>
    obtain ⟨one, two⟩ := Bool.or_eq_false_iff.mp silent
    have kept := firstKeeps one graph
    obtain ⟨_, _, between, asked, decided | decided⟩ := judge_both source node first second graph
    · obtain ⟨_, _, _, _, again, both⟩ := decided
      have later := secondKeeps two between
      rw [asked] at kept
      rw [again] at later
      rw [both]
      exact later.trans kept
    · rw [asked] at kept
      rw [decided.2]
      exact kept
  | oneOf first second firstKeeps secondKeeps =>
    obtain ⟨one, two⟩ := Bool.or_eq_false_iff.mp silent
    have kept := firstKeeps one graph
    obtain ⟨_, _, between, asked, decided | decided | decided⟩ :=
      judge_oneOf source node first second graph
    all_goals rw [asked] at kept
    · rw [decided.2]
      exact kept
    · obtain ⟨_, _, oneOf⟩ := decided
      rw [oneOf]
      exact kept
    · obtain ⟨_, _, _, _, _, _, again, oneOf⟩ := decided
      have later := secondKeeps two between
      rw [again] at later
      rw [oneOf]
      exact later.trans kept

/-- A commit that says something and stands in the tree of another commit as a file. -/
def quoting (message : Bytes) : Source :=
  .storing [
    (.uniform 1, ⟨.commit, (Pickaxe.rootObject .zero).payload ++ 0x0A :: 0x0A :: message⟩),
    (.uniform 2, Source.treeObject [("f", ⟨.uniform 1, .regular⟩)]),
    (.uniform 3, Pickaxe.rootObject (.uniform 2))]

/-- What the commit says is no matter for any header, tree or blob. -/
theorem quoting_reworded (message other : Bytes) :
    Source.Reworded (quoting message) (quoting other) :=
  Source.reworded_storing _ message other _ _

/-- The commit whose tree has the other one as a file. -/
def quoter : Node := ⟨.uniform 3, .uniform 2, [], 0⟩

/-- Reading no message is not enough. A filter that counts a letter decides by what the commit
says that stands as a file. -/
theorem occurrences_quoting :
    Source.Reworded (quoting [0x62]) (quoting [0x7A]) ∧
      (quoting [0x62]).node (.uniform 3) = .ok quoter ∧
      (occurrences (.literal "z")).needsMessage = false ∧
      ((occurrences (.literal "z")).judge (quoting [0x62]) quoter {}).1 = .ok .exclude ∧
      ((occurrences (.literal "z")).judge (quoting [0x7A]) quoter {}).1 = .ok .include :=
  ⟨quoting_reworded [0x62] [0x7A], ok_of_toOption (by decide +kernel), rfl,
    ok_of_toOption (by decide +kernel), ok_of_toOption (by decide +kernel)⟩

/-- What a filter decides about one commit after another through one graph, and what is left of
both. -/
def judgeEach (source : Source) :
    List Node → Filter → Graph → List (Except Fault Outcome) × Filter × Graph
  | [], filter, graph => ([], filter, graph)
  | node :: rest, filter, graph =>
    match filter.judge source node graph with
    | (result, filter, graph) =>
      match judgeEach source rest filter graph with
      | (results, filter, graph) => (result :: results, filter, graph)

/-- So it is with any number of commits. -/
theorem judgeEach_reworded (reworded : Source.Reworded left right)
    (overlooks : filter.Overlooks left right) (nodes : List Node) (graph : Graph) :
    judgeEach right nodes filter graph = judgeEach left nodes filter graph := by
  induction nodes generalizing filter graph with
  | nil => rfl
  | cons node rest inductionHypothesis =>
    have later := inductionHypothesis (overlooks.following left node graph)
    simp only [judgeEach, judge_reworded reworded overlooks, later]

/-- A filter that needs no messages reads none, whatever it is asked. -/
theorem judgeEach_messages (source : Source) (silent : filter.needsMessage = false)
    (nodes : List Node) (graph : Graph) :
    (judgeEach source nodes filter graph).2.2.messages = graph.messages := by
  induction nodes generalizing filter graph with
  | nil => rfl
  | cons node rest inductionHypothesis =>
    have following := (Overlooks.of_silent source silent).following source node graph
    exact (inductionHypothesis following.silent _).trans (judge_messages source silent node graph)

/-- The decisions are the same over all faithful graphs. -/
theorem judgeEach_steady (source : Source) (nodes : List Node) (filter : Filter) :
    ∃ results last, ∀ graph, graph.Faithful source →
      ∃ kept, judgeEach source nodes filter graph = (results, last, kept) ∧
        kept.Faithful source := by
  induction nodes generalizing filter with
  | nil => exact ⟨[], filter, fun graph faithful => ⟨graph, rfl, faithful⟩⟩
  | cons node rest inductionHypothesis =>
    obtain ⟨results, last, later⟩ := inductionHypothesis (filter.answer source node).2
    refine ⟨(filter.answer source node).1 :: results, last, fun graph faithful => ?_⟩
    obtain ⟨between, asked, faithful⟩ := filter.judge_answer source node graph faithful
    obtain ⟨kept, finished, faithful⟩ := later between faithful
    exact ⟨kept, by simp only [judgeEach, asked, finished], faithful⟩

end Filter

end Ancestry
