import Ancestry.Proofs.Walk.Settings
import Mathlib.Data.List.DropRight

/-!
# Sessions with a walk

Settings, requests for commits, messages, marks and the text of the walk, and resets: all
that can be done with a walk, in any sequence. Every operation has a reply, also where it
fails, and the walk can be used after it. A session is a sequence of operations with their
replies.

A history is a session as far as one walk is concerned. The graph that the walk reads
through may change between two operations, as it does when it is shared; all that a history
asks of it is that it is faithful whenever the walk reads.
-/

namespace Ancestry

/-- What can be done with a walk. -/
inductive Operation where
  | set (setting : Setting)
  | next
  | body (node : Node)
  | marks (id : ObjectId)
  | describe
  | reset

/-- What a walk replies. -/
inductive Reply where
  | done
  | commit (node : Option Node)
  | message (text : String)
  | marks (marks : Marks)
  | text (text : String)
  | failed (fault : Fault)
  deriving DecidableEq

namespace Operation

/-- Begins another pass. -/
def isReset : Operation → Bool
  | .reset => true
  | _ => false

/-- The setting that is asked for. -/
def setting? : Operation → Option Setting
  | .set setting => some setting
  | _ => none

end Operation

namespace Reply

/-- The reply that tells a result. -/
def ofResult {α : Type} (tell : α → Reply) : Except Fault α → Reply
  | .ok value => tell value
  | .error fault => .failed fault

end Reply

/-- An operation and its reply. -/
abbrev Event := Operation × Reply

namespace Event

/-- The setting of an operation that was done. -/
def chosen? : Event → Option Setting
  | (operation, .done) => operation.setting?
  | _ => none

/-- The reply to a request for a commit. -/
def answer? : Event → Option Reply
  | (.next, reply) => some reply
  | _ => none

/-- All settings that were done. -/
def chosen (events : List Event) : List Setting := events.filterMap chosen?

/-- All replies to requests for commits. -/
def answers (events : List Event) : List Reply := events.filterMap answer?

/-- What has happened since the last reset, or since the walk was new. -/
def pass (events : List Event) : List Event := events.rtakeWhile fun event => !event.1.isReset

end Event

namespace Walk

/-- One operation and the reply to it. -/
def perform (source : Source) : Operation → Walk → Graph → Reply × Walk × Graph
  | .set setting, walk, graph =>
    match setting.action source walk graph with
    | (result, walk, graph) => (.ofResult (fun _ => .done) result, walk, graph)
  | .next, walk, graph =>
    match next source walk graph with
    | (result, walk, graph) => (.ofResult .commit result, walk, graph)
  | .body node, walk, graph =>
    match body source node walk graph with
    | (result, walk, graph) => (.ofResult .message result, walk, graph)
  | .marks id, walk, graph => (.marks (walk.marksOf id), walk, graph)
  | .describe, walk, graph => (.text walk.describe, walk, graph)
  | .reset, walk, graph => (.done, walk.reset, graph)

/-- One operation after another, also after one that fails. -/
def session (source : Source) : List Operation → Walk → Graph → List Reply × Walk × Graph
  | [], walk, graph => ([], walk, graph)
  | operation :: rest, walk, graph =>
    match perform source operation walk graph with
    | (reply, walk, graph) =>
      match session source rest walk graph with
      | (replies, walk, graph) => (reply :: replies, walk, graph)

/-- What has happened to a walk since it was new, whatever the graph had read each time. -/
inductive History (source : Source) : List Event → Walk → Prop where
  | new : History source [] {}
  | more {events : List Event} {walk after : Walk} {graph kept : Graph} {operation : Operation}
      {reply : Reply} (history : History source events walk) (faithful : graph.Faithful source)
      (ran : perform source operation walk graph = (reply, after, kept)) :
      History source (events ++ [(operation, reply)]) after

end Walk

end Ancestry
