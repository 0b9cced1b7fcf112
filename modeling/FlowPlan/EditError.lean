import FlowPlan.Node

namespace FlowPlan

/-! Why an edit of a document is refused. -/

inductive EditError where
  | nodeNotFound (node : NodeId)
  | unknownTaskType (node : NodeId) (taskType : String)
  | selfLoop (node : NodeId)
  | missingHandle (node : NodeId)
  | sourcePortNotFound (node : NodeId) (port : String)
  | targetPortNotFound (node : NodeId) (port : String)
  | targetNotConnectable (node : NodeId) (port : String)
  | targetAlreadyConnected (node : NodeId) (port : String)
  | incompatiblePorts (source : NodeId) (sourceType : PortType) (target : NodeId)
      (targetType : PortType)
  | cycleDetected (source target : NodeId)
  deriving DecidableEq, Repr

namespace EditError

def message : EditError -> String
  | .nodeNotFound node => "node not found: " ++ node
  | .unknownTaskType node taskType =>
      "node " ++ node ++ " has unknown task type '" ++ taskType ++ "'"
  | .selfLoop node => "node " ++ node ++ " cannot be connected to itself"
  | .missingHandle node => "connection to node " ++ node ++ " names no port"
  | .sourcePortNotFound node port =>
      "source port '" ++ port ++ "' not found on node " ++ node
  | .targetPortNotFound node port =>
      "target port '" ++ port ++ "' not found on node " ++ node
  | .targetNotConnectable node port =>
      "input '" ++ port ++ "' on node " ++ node ++ " accepts literal values only"
  | .targetAlreadyConnected node port =>
      "input '" ++ port ++ "' on node " ++ node ++ " is already connected"
  | .incompatiblePorts source sourceType target targetType =>
      "incompatible ports: " ++ source ++ " (" ++ sourceType.name ++ ") -> "
        ++ target ++ " (" ++ targetType.name ++ ")"
  | .cycleDetected source target =>
      "connecting " ++ source ++ " -> " ++ target ++ " would create a cycle"

/-- Refuse with this error where a value is absent. -/
def require {Value : Type} (error : EditError) : Option Value -> Except EditError Value
  | some value => .ok value
  | none => .error error

end EditError

end FlowPlan
