import FlowPlan.Flow.Edit

namespace FlowPlan

/-!
Edits in place.

An editor holds one document and writes into it.  Each program here makes its
look-ups, checks and writes one after another, and a refusal stops it with
whatever it has written by then.
-/

namespace Flow

/-- A program on a flow, which it may change and which may be refused. -/
abbrev Editing (Answer : Type) := EStateM EditError Flow Answer

def changeNodes (change : List Node -> List Node) : Editing Unit :=
  modify (fun flow => { flow with nodes := change flow.nodes })

def changeEdges (change : List Edge -> List Edge) : Editing Unit :=
  modify (fun flow => { flow with edges := change flow.edges })

def addingNode (id : NodeId) (kind : TaskKind) : Editing Unit :=
  changeNodes (fun nodes => nodes ++ [Node.ofKind id kind])

/-- The edges go before the node does. -/
def removingNode (id : NodeId) : Editing (Option Node) := do
  match (<- get).node? id with
  | none => return none
  | some node =>
      changeEdges (fun edges => edges.filter (fun edge => !edge.touches id))
      changeNodes (fun nodes => nodes.eraseP (fun other => other.id == id))
      return some node

def settingInput (id : NodeId) (name value : String) : Editing Unit := do
  match (<- get).node? id with
  | none => throw (.nodeNotFound id)
  | some _ => changeNodes (updateNode id (fun node => node.withInput name value))

/-- The literal is cleared before the edge is added. -/
def connecting (registry : Registry) (connection : Edge) : Editing Unit := do
  MonadExcept.ofExcept ((<- get).validate registry connection)
  let handle <- MonadExcept.ofExcept
    ((EditError.missingHandle connection.target).require connection.targetHandle)
  if (feeder? (<- get).edges connection.target handle).isSome then
    throw (.targetAlreadyConnected connection.target handle)
  changeNodes (updateNode connection.target (fun node => node.withInput handle ""))
  changeEdges (fun edges => edges ++ [connection])

def disconnecting (source target : NodeId) (handle : String) : Editing (Option Edge) := do
  let chosen := fun edge : Edge => edge.source == source && edge.feeds target handle
  match (<- get).edges.find? chosen with
  | none => return none
  | some edge =>
      changeEdges (fun edges => edges.eraseP chosen)
      return some edge

def editing (registry : Registry) : Edit -> Editing EditReply
  | .addNode id kind => do
      addingNode id kind
      return .done
  | .removeNode id => do
      return .removedNode (<- removingNode id)
  | .setInput id name value => do
      settingInput id name value
      return .done
  | .connect connection => do
      connecting registry connection
      return .done
  | .disconnect source target handle => do
      return .removedEdge (<- disconnecting source target handle)

end Flow

/-- What an editor sees of a program that has ended: its answer and the flow. -/
def EditReply.ofResult : EStateM.Result EditError Flow EditReply -> EditReply × Flow
  | .ok reply flow => (reply, flow)
  | .error error flow => (.refused error, flow)

end FlowPlan
