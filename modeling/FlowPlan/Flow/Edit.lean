import FlowPlan.Flow

namespace FlowPlan

/-!
Edits as data, so that a whole editing session is a list of them.

A refused edit leaves the flow as it was.  The identifier of a new node comes
with the edit that adds it, since identifiers are generated outside.
-/

inductive Edit where
  | addNode (id : NodeId) (kind : TaskKind)
  | removeNode (id : NodeId)
  | setInput (id : NodeId) (name value : String)
  | connect (connection : Edge)
  | disconnect (source target : NodeId) (handle : String)

/-- What an edit answers. -/
inductive EditReply where
  | done
  | refused (error : EditError)
  | removedNode (node : Option Node)
  | removedEdge (edge : Option Edge)

namespace EditReply

/-- An edit that can be refused: its answer, and the flow it leaves. -/
def ofExcept (flow : Flow) : Except EditError Flow -> EditReply × Flow
  | .ok changed => (.done, changed)
  | .error error => (.refused error, flow)

end EditReply

namespace Flow

def edit (registry : Registry) (flow : Flow) : Edit -> EditReply × Flow
  | .addNode id kind => (.done, flow.addNode id kind)
  | .removeNode id =>
      match flow.removeNode? id with
      | some (node, rest) => (.removedNode (some node), rest)
      | none => (.removedNode none, flow)
  | .setInput id name value => EditReply.ofExcept flow (flow.setInput id name value)
  | .connect connection => EditReply.ofExcept flow (flow.connect registry connection)
  | .disconnect source target handle =>
      match flow.disconnect? source target handle with
      | some (edge, rest) => (.removedEdge (some edge), rest)
      | none => (.removedEdge none, flow)

/-- The flow a session of edits leads to. -/
def afterEdits (registry : Registry) (flow : Flow) (edits : List Edit) : Flow :=
  edits.foldl (fun flow edit => (flow.edit registry edit).2) flow

end Flow

end FlowPlan
