import FlowPlan.Node

namespace FlowPlan

/-!
Execution plans: numbered phases whose nodes can run side by side, and the
three ways in which a document can fail to have a plan.
-/

structure Phase where
  number : Nat
  nodes : List Node
  deriving DecidableEq

structure Plan where
  phases : List Phase
  deriving DecidableEq

namespace Plan

/-- Number the groups from one. -/
def ofGroups (groups : List (List Node)) : Plan :=
  ⟨(groups.zipIdx 1).map (fun group => ⟨group.2, group.1⟩)⟩

def length (plan : Plan) : Nat := plan.phases.length

def isEmpty (plan : Plan) : Bool := plan.phases.isEmpty

def nodeCount (plan : Plan) : Nat := (plan.phases.flatMap Phase.nodes).length

/-- The number of the first phase that holds a node of this identifier. -/
def phaseOf? (plan : Plan) (id : NodeId) : Option Nat :=
  (plan.phases.find? (fun phase => phase.nodes.any (fun node => node.id == id))).map Phase.number

/-- The first node of the first phase. -/
def entryPoint? (plan : Plan) : Option Node :=
  plan.phases.head?.bind (fun phase => phase.nodes.head?)

end Plan

/-- A node and the names of its inputs that nothing provides. -/
structure InvalidElement where
  node : NodeId
  inputs : List String
  deriving DecidableEq, Repr

namespace InvalidElement

def report (element : InvalidElement) : String :=
  " node " ++ element.node ++ " missing [" ++ String.intercalate ", " element.inputs ++ "];"

end InvalidElement

inductive PlanError where
  | noEntryPoint
  | invalidInputs (elements : List InvalidElement)
  | unreachableNodes (ids : List NodeId)
  deriving DecidableEq, Repr

namespace PlanError

def message : PlanError -> String
  | .noEntryPoint => "no entry point found"
  | .invalidInputs elements =>
      "invalid inputs found:" ++ String.join (elements.map InvalidElement.report)
  | .unreachableNodes ids => "unreachable nodes: " ++ String.intercalate ", " ids

end PlanError

end FlowPlan
