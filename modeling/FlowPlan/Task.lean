import FlowPlan.Port

namespace FlowPlan

/-!
Task definitions: what a kind of task is called, which ports it has, and
whether a workflow may begin with it.
-/

structure TaskDefinition where
  label : String
  inputs : List InputPort
  outputs : List OutputPort
  isEntryPoint : Bool
  deriving DecidableEq, Repr

namespace TaskDefinition

def titled (label : String) : TaskDefinition := ⟨label, [], [], false⟩

def asEntryPoint (definition : TaskDefinition) : TaskDefinition :=
  { definition with isEntryPoint := true }

def withInput (definition : TaskDefinition) (port : InputPort) : TaskDefinition :=
  { definition with inputs := definition.inputs ++ [port] }

def withOutput (definition : TaskDefinition) (port : OutputPort) : TaskDefinition :=
  { definition with outputs := definition.outputs ++ [port] }

/-- The first input of that name; later ones of the same name are shadowed. -/
def input? (definition : TaskDefinition) (name : String) : Option InputPort :=
  definition.inputs.find? (fun port => port.name == name)

def output? (definition : TaskDefinition) (name : String) : Option OutputPort :=
  definition.outputs.find? (fun port => port.name == name)

end TaskDefinition

/-- What a planner knows about task types: the definition of each known one. -/
abbrev Registry := String -> Option TaskDefinition

end FlowPlan
