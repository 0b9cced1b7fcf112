import FlowPlan.Node

namespace FlowPlan

/-!
Edges: directed connections between nodes, usually from an output port to an
input port.  A saved edge may leave either port unnamed.
-/

structure Edge where
  source : NodeId
  target : NodeId
  sourceHandle : Option String
  targetHandle : Option String
  deriving DecidableEq, Repr

namespace Edge

def between (source target : NodeId) : Edge := ⟨source, target, none, none⟩

def withHandles (edge : Edge) (sourceHandle targetHandle : String) : Edge :=
  { edge with sourceHandle := some sourceHandle, targetHandle := some targetHandle }

/-- The edge ends at this input of this node. -/
def feeds (edge : Edge) (node : NodeId) (input : String) : Bool :=
  edge.target == node && edge.targetHandle == some input

theorem feeds_eq_true_iff (edge : Edge) (node : NodeId) (input : String) :
    edge.feeds node input = true ↔ edge.target = node ∧ edge.targetHandle = some input := by
  rw [feeds, Bool.and_eq_true, beq_iff_eq, beq_iff_eq]

/-- The edge has this node at one end. -/
def touches (edge : Edge) (node : NodeId) : Bool :=
  edge.source == node || edge.target == node

end Edge

/-- The edge that provides an input: the first that feeds it. -/
def feeder? (edges : List Edge) (node : NodeId) (input : String) : Option Edge :=
  edges.find? (fun edge => edge.feeds node input)

end FlowPlan
