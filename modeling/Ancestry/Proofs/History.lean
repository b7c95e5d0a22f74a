import Ancestry.Graph
import Mathlib.Logic.Relation

/-!
# Histories

What a source says about parents is a relation between identifiers. A commit reaches
another one along a path of parents, and a path may be confined to commits of some kind,
all but its last one. A graph is faithful to a source if it keeps only what the source
answers; it then answers as the source does, whatever was asked of it before.
-/

namespace Ancestry

/-- A result that evaluation finds. -/
theorem ok_of_toOption {ε α : Type} {result : Except ε α} {value : α}
    (found : result.toOption = some value) : result = .ok value := by
  cases result with
  | error failure => simp [Except.toOption] at found
  | ok other => simpa [Except.toOption] using found

namespace Source

/-- The node of an identifier. -/
def node (source : Source) (id : ObjectId) : Except Fault Node :=
  (source.header id).map fun header => ⟨id, header⟩

/-- The identifier names a commit whose header can be read. -/
def Resolves (source : Source) (id : ObjectId) : Prop := ∃ node, source.node id = .ok node

/-- One commit names another as a parent. The child must resolve; the parent need not. -/
def Parent (source : Source) (child parent : ObjectId) : Prop :=
  ∃ node, source.node child = .ok node ∧ parent ∈ node.parents

/-- A path of parents, possibly without a step. -/
def Reaches (source : Source) : ObjectId → ObjectId → Prop :=
  Relation.ReflTransGen source.Parent

/-- Some of the roots reaches the commit. -/
def Reached (source : Source) (roots : List ObjectId) (id : ObjectId) : Prop :=
  ∃ root ∈ roots, source.Reaches root id

/-- A path of parents from one of the roots on which `through` holds of every commit but
possibly the last. -/
def Leads (source : Source) (through : ObjectId → Prop) (roots : List ObjectId)
    (id : ObjectId) : Prop :=
  ∃ root ∈ roots,
    Relation.ReflTransGen (fun child parent => through child ∧ source.Parent child parent) root id

variable {source : Source} {through : ObjectId → Prop} {roots : List ObjectId}

/-- A node carries the identifier it was asked for. -/
theorem id_of_node {id : ObjectId} {node : Node} (resolved : source.node id = .ok node) :
    node.id = id := by
  cases read : source.header id with
  | error fault => simp [Source.node, read, Except.map] at resolved
  | ok header =>
    simp only [Source.node, read, Except.map, Except.ok.injEq] at resolved
    rw [← resolved]

/-- A node that was resolved is found again under its own identifier. -/
theorem node_of_id {id : ObjectId} {node : Node} (resolved : source.node id = .ok node) :
    source.node node.id = .ok node := by
  rwa [id_of_node resolved]

/-- The parents of a node are the parents of its identifier. -/
theorem parent_iff {id parent : ObjectId} {node : Node} (resolved : source.node id = .ok node) :
    source.Parent id parent ↔ parent ∈ node.parents := by
  constructor
  · rintro ⟨other, same, member⟩
    rw [resolved] at same
    exact Except.ok.inj same ▸ member
  · exact fun member => ⟨node, resolved, member⟩

/-- Where a header can be read the message can be read as well, as both stand in one
payload. -/
theorem message_of_node {id : ObjectId} {node : Node} (resolved : source.node id = .ok node) :
    ∃ text, source.message id = .ok text := by
  cases read : source.payloadOf .commit id with
  | error fault => simp [Source.node, header, readCommit, read, Except.map] at resolved
  | ok bytes => exact ⟨Commit.readMessage bytes, by simp [message, read, Except.map]⟩

/-- A root leads to itself. -/
theorem leads_root {root : ObjectId} (member : root ∈ roots) : source.Leads through roots root :=
  ⟨root, member, .refl⟩

/-- What is passed on the way leads on to its parents. -/
theorem leads_step {child parent : ObjectId} (led : source.Leads through roots child)
    (passed : through child) (step : source.Parent child parent) :
    source.Leads through roots parent := by
  obtain ⟨root, member, path⟩ := led
  exact ⟨root, member, path.tail ⟨passed, step⟩⟩

/-- What holds of the roots and is passed on along the path holds where it leads. -/
theorem leads_least (claim : ObjectId → Prop) (first : ∀ root ∈ roots, claim root)
    (next : ∀ child parent, claim child → through child → source.Parent child parent →
      claim parent)
    {id : ObjectId} (led : source.Leads through roots id) : claim id := by
  obtain ⟨root, member, path⟩ := led
  induction path with
  | refl => exact first root member
  | tail _ step inductionHypothesis => exact next _ _ inductionHypothesis step.1 step.2

/-- More roots and wider paths lead to more commits. -/
theorem leads_mono {wider : ObjectId → Prop} {others : List ObjectId}
    (admitted : ∀ id, through id → wider id) (included : ∀ root ∈ roots, root ∈ others)
    {id : ObjectId} (led : source.Leads through roots id) : source.Leads wider others id :=
  leads_least _ (fun root member => leads_root (included root member))
    (fun child _ reached passed step => leads_step reached (admitted child passed) step) led

/-- Which commits are led to depends on what may be passed, not on how that is said. -/
theorem leads_congr {other : ObjectId → Prop} (same : ∀ id, through id ↔ other id)
    (id : ObjectId) : source.Leads through roots id ↔ source.Leads other roots id :=
  ⟨leads_mono (fun other => (same other).mp) fun _ member => member,
    leads_mono (fun other => (same other).mpr) fun _ member => member⟩

/-- A path through commits that are led to themselves adds nothing. -/
theorem leads_trans {others : List ObjectId}
    (first : ∀ root ∈ others, source.Leads through roots root)
    {id : ObjectId} (led : source.Leads through others id) : source.Leads through roots id :=
  leads_least _ first (fun _ _ => leads_step) led

/-- Without anything to pass through, roots lead to themselves only. -/
theorem leads_none (blocked : ∀ id, ¬ through id) (id : ObjectId) :
    source.Leads through roots id ↔ id ∈ roots :=
  ⟨leads_least _ (fun _ member => member) fun child _ _ passed => absurd passed (blocked child),
    leads_root⟩

/-- A root is reached from itself. -/
theorem reached_root {root : ObjectId} (member : root ∈ roots) : source.Reached roots root :=
  ⟨root, member, .refl⟩

/-- A parent of a reached commit is reached. -/
theorem reached_step {child parent : ObjectId} (reached : source.Reached roots child)
    (step : source.Parent child parent) : source.Reached roots parent := by
  obtain ⟨root, member, path⟩ := reached
  exact ⟨root, member, path.tail step⟩

/-- More roots reach more commits. -/
theorem reached_mono {others : List ObjectId} (included : ∀ root ∈ roots, root ∈ others)
    {id : ObjectId} (reached : source.Reached roots id) : source.Reached others id := by
  obtain ⟨root, member, path⟩ := reached
  exact ⟨root, included root member, path⟩

/-- A confined path is a path. -/
theorem reached_of_leads {id : ObjectId} (led : source.Leads through roots id) :
    source.Reached roots id :=
  leads_least _ (fun _ => reached_root) (fun _ _ reached _ => reached_step reached) led

/-- A set that holds the roots and all parents of its members holds what is reached. -/
theorem reached_least (claim : ObjectId → Prop) (first : ∀ root ∈ roots, claim root)
    (next : ∀ child parent, claim child → source.Parent child parent → claim parent)
    {id : ObjectId} (reached : source.Reached roots id) : claim id := by
  obtain ⟨root, member, path⟩ := reached
  induction path with
  | refl => exact first root member
  | tail _ step inductionHypothesis => exact next _ _ inductionHypothesis step

/-- Along every path from the roots each commit is strictly newer than its parents. -/
def Descends (source : Source) (roots : List ObjectId) : Prop :=
  ∀ child parent : Node, source.Reached roots child.id → source.node child.id = .ok child →
    source.node parent.id = .ok parent → parent.id ∈ child.parents → parent.time < child.time

/-- Where times fall from some roots on they fall from fewer roots on. -/
theorem Descends.mono {others : List ObjectId} (descends : source.Descends others)
    (included : ∀ root ∈ roots, root ∈ others) : source.Descends roots :=
  fun child parent reached => descends child parent (reached_mono included reached)

/-- Where times fall, a parent of a commit that is reached is older than it. -/
theorem Descends.older (descends : source.Descends roots) {id parent : ObjectId}
    {node other : Node} (reached : source.Reached roots id) (resolved : source.node id = .ok node)
    (member : parent ∈ node.parents) (resolves : source.node parent = .ok other) :
    other.time < node.time := by
  obtain rfl := id_of_node resolved
  obtain rfl := id_of_node resolves
  exact descends node other reached resolved resolves member

/-- The payload of a commit with the absent tree, nameless people and no message. -/
def barePayload (parents : List ObjectId) (time : Nat) : Bytes :=
  let chars := ['t', 'r', 'e', 'e', ' '] ++ ObjectId.zero.hexChars ++ ['\n'] ++
    parents.flatMap (fun id => ['p', 'a', 'r', 'e', 'n', 't', ' '] ++ id.hexChars ++ ['\n']) ++
    ['a', 'u', 't', 'h', 'o', 'r', ' ', '<', '>', ' ', '0', ' ', '+', '0', '0', '0', '0', '\n'] ++
    ['c', 'o', 'm', 'm', 'i', 't', 't', 'e', 'r', ' ', '<', '>', ' '] ++ Nat.toDigits 10 time ++
    [' ', '+', '0', '0', '0', '0']
  chars.map fun char => UInt8.ofNat char.toNat

/-- A source of commits that are told by their parents and times. -/
def bare (commits : List (ObjectId × List ObjectId × Nat)) : Source where
  read id :=
    match commits.lookup id with
    | some (parents, time) => .ok ⟨.commit, barePayload parents time⟩
    | none => .error (.objectMissing id)

end Source

namespace Graph

/-- Everything that is kept is what the source answers. -/
structure Faithful (source : Source) (graph : Graph) : Prop where
  headers : ∀ id header, graph.headers[id]? = some header → source.header id = .ok header
  messages : ∀ id text, graph.messages[id]? = some text → source.message id = .ok text

/-- A new graph keeps nothing. -/
theorem faithful_empty (source : Source) : Faithful source {} := by
  constructor <;> intro id value kept <;> simp at kept

variable {source : Source} {graph : Graph}

/-- A faithful graph resolves as the source does, and stays faithful. -/
theorem Faithful.resolve (faithful : graph.Faithful source) (id : ObjectId) :
    ∃ after, graph.resolve source id = (source.node id, after) ∧ after.Faithful source := by
  cases kept : graph.headers[id]? with
  | some header =>
    refine ⟨graph, ?_, faithful⟩
    simp [Graph.resolve, kept, Source.node, faithful.headers id header kept, Except.map]
  | none =>
    cases read : source.header id with
    | error fault =>
      exact ⟨graph, by simp [Graph.resolve, kept, Source.node, read, Except.map], faithful⟩
    | ok header =>
      refine ⟨{ graph with headers := graph.headers.insert id header },
        by simp [Graph.resolve, kept, Source.node, read, Except.map], ?_, faithful.messages⟩
      intro other value found
      rw [Std.TreeMap.getElem?_insert] at found
      split at found
      · rename_i same
        rw [← Std.LawfulEqOrd.eq_of_compare same, read]
        exact congrArg Except.ok (Option.some.inj found)
      · exact faithful.headers other value found

/-- A faithful graph answers with the source's message, and stays faithful. -/
theorem Faithful.message (faithful : graph.Faithful source) (node : Node) :
    ∃ after, graph.message source node = (source.message node.id, after) ∧
      after.Faithful source := by
  cases kept : graph.messages[node.id]? with
  | some text =>
    refine ⟨graph, ?_, faithful⟩
    simp [Graph.message, kept, faithful.messages node.id text kept]
  | none =>
    cases read : source.message node.id with
    | error fault => exact ⟨graph, by simp [Graph.message, kept, read], faithful⟩
    | ok text =>
      refine ⟨{ graph with messages := graph.messages.insert node.id text },
        by simp [Graph.message, kept, read], faithful.headers, ?_⟩
      intro other value found
      rw [Std.TreeMap.getElem?_insert] at found
      split at found
      · rename_i same
        rw [← Std.LawfulEqOrd.eq_of_compare same, read]
        exact congrArg Except.ok (Option.some.inj found)
      · exact faithful.messages other value found

end Graph

end Ancestry
