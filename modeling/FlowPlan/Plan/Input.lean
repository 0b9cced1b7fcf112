import FlowPlan.Edge

namespace FlowPlan

/-!
Which inputs of a node are provided for.

A literal provides an input whatever is connected to it.  Otherwise the first
edge that feeds the input decides: it provides once its source is planned.  An
input that no edge feeds may stay empty when it is optional.
-/

/-- Stands for the inputs of a node whose task type is not registered. -/
def unknownTaskMark : String := "INVALID_TASK_TYPE"

def isProvided (edges : List Edge) (planned : List NodeId) (node : Node) (input : InputPort) :
    Bool :=
  match node.literal? input.name with
  | some _ => true
  | none =>
      match feeder? edges node.id input.name with
      | some edge => planned.contains edge.source
      | none => !input.required

/-- The declared inputs that nothing provides yet, in declaration order. -/
def missingInputs (registry : Registry) (edges : List Edge) (planned : List NodeId)
    (node : Node) : List String :=
  match registry node.taskType with
  | none => [unknownTaskMark]
  | some definition =>
      (definition.inputs.filter (fun input => !isProvided edges planned node input)).map
        InputPort.name

end FlowPlan
