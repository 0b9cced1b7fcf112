import FlowPlan.Connection
import FlowPlan.Plan.Compile

namespace FlowPlan

/-!
Flows: the document behind a canvas, with its nodes, edges and viewport, and
the edits an editor makes to it.

Identifiers may repeat in a loaded flow; an edit of a node always concerns the
first node of that identifier.
-/

/-- The part of the canvas in view. -/
structure Viewport where
  x : Float
  y : Float
  zoom : Float

structure Flow where
  nodes : List Node
  edges : List Edge
  viewport : Option Viewport

namespace Flow

def empty : Flow := ⟨[], [], none⟩

/-- Append a node of a built-in kind under a fresh identifier. -/
def addNode (flow : Flow) (id : NodeId) (kind : TaskKind) : Flow :=
  { flow with nodes := flow.nodes ++ [Node.ofKind id kind] }

/-- What a new workflow starts from: one node that opens the browser. -/
def withEntryPoint (id : NodeId) : Flow := empty.addNode id .launchBrowser

def node? (flow : Flow) (id : NodeId) : Option Node := nodeNamed? flow.nodes id

/-- Take out a node together with every edge at that identifier. -/
def removeNode? (flow : Flow) (id : NodeId) : Option (Node × Flow) :=
  (flow.node? id).map (fun node =>
    (node,
      { flow with
        nodes := flow.nodes.eraseP (fun other => other.id == id)
        edges := flow.edges.filter (fun edge => !edge.touches id) }))

/-- Type a literal into an input of a node. -/
def setInput (flow : Flow) (id : NodeId) (name value : String) : Except EditError Flow :=
  match flow.node? id with
  | none => .error (.nodeNotFound id)
  | some _ =>
      .ok { flow with nodes := updateNode id (fun node => node.withInput name value) flow.nodes }

def validate (registry : Registry) (flow : Flow) (connection : Edge) : Except EditError Unit :=
  validateConnection registry flow.nodes flow.edges connection

/-- Draw an edge.  An input takes one edge, and loses its literal to it. -/
def connect (registry : Registry) (flow : Flow) (connection : Edge) : Except EditError Flow := do
  flow.validate registry connection
  let handle <- (EditError.missingHandle connection.target).require connection.targetHandle
  if (feeder? flow.edges connection.target handle).isSome then
    .error (.targetAlreadyConnected connection.target handle)
  else
    .ok
      { flow with
        nodes := updateNode connection.target (fun node => node.withInput handle "") flow.nodes
        edges := flow.edges ++ [connection] }

/-- Take out the first edge between two nodes that feeds this input. -/
def disconnect? (flow : Flow) (source target : NodeId) (handle : String) :
    Option (Edge × Flow) :=
  let chosen := fun edge : Edge => edge.source == source && edge.feeds target handle
  (flow.edges.find? chosen).map (fun edge =>
    (edge, { flow with edges := flow.edges.eraseP chosen }))

def compile (registry : Registry) (flow : Flow) : Except PlanError Plan :=
  FlowPlan.compile registry flow.nodes flow.edges

end Flow

end FlowPlan
