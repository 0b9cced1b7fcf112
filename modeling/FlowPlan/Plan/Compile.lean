import FlowPlan.Dependency
import FlowPlan.Plan
import FlowPlan.Plan.Input

namespace FlowPlan

/-!
Compiling a document into phases.

The entry point is planned alone.  Each further round looks at the nodes that
are still unplanned, against what was planned before the round, and places a
node when all its inputs are provided.  A node with missing inputs is placed
too once everything connected into it is planned: waiting longer cannot help
it, so its missing inputs are reported, and nodes behind it are still examined.
There are at most as many rounds as nodes, the entry point's own included, and
none after everything is planned or after a round that places nothing.
-/

/-- A node placed in a round, with the inputs it was found to miss. -/
structure Slot where
  node : Node
  missing : List String
  deriving DecidableEq

def Slot.id (slot : Slot) : NodeId := slot.node.id

/-- The first node whose task may begin a workflow. -/
def entryPoint? (registry : Registry) (nodes : List Node) : Option Node :=
  nodes.find? (fun node => (registry node.taskType).any TaskDefinition.isEntryPoint)

/-- Keep the first slot of each node identifier. -/
def firstSlots : List Slot -> List Slot
  | [] => []
  | slot :: rest => slot :: (firstSlots rest).filter (fun later => later.id != slot.id)

def unplanned (planned : List NodeId) (nodes : List Node) : List Node :=
  nodes.filter (fun node => !planned.contains node.id)

section Rounds

variable (registry : Registry) (nodes : List Node) (edges : List Edge)

/-- Place a node, unless it misses an input and something connected into it
is still unplanned. -/
def slotFor? (graph : DependencyGraph) (planned : List NodeId) (node : Node) : Option Slot :=
  let missing := missingInputs registry edges planned node
  if missing.isEmpty || (graph.incomers node.id).all planned.contains then some ⟨node, missing⟩
  else none

/-- The slots of one round, in document order, at most one for an identifier. -/
def planRound (graph : DependencyGraph) (planned : List NodeId) : List Slot :=
  firstSlots ((unplanned planned nodes).filterMap (slotFor? registry edges graph planned))

/-- The rounds that follow, at most `bound` of them, given what is already
planned. -/
def planRounds (graph : DependencyGraph) : Nat -> List NodeId -> List (List Slot)
  | 0, _ => []
  | bound + 1, planned =>
      if graph.nodeCount ≤ planned.length then []
      else
        match planRound registry nodes edges graph planned with
        | [] => []
        | slot :: slots =>
            (slot :: slots) :: planRounds graph bound (planned ++ (slot :: slots).map Slot.id)

/-- All rounds of a document that begins with `entry`.  The entry point is
checked against a plan that holds nothing but itself. -/
def agenda (entry : Node) : List (List Slot) :=
  [⟨entry, missingInputs registry edges [entry.id] entry⟩]
    :: planRounds registry nodes edges (DependencyGraph.ofDocument nodes edges)
        (nodes.length - 1) [entry.id]

end Rounds

/-- The slots with missing inputs, in the order in which they were placed. -/
def invalidElements (rounds : List (List Slot)) : List InvalidElement :=
  (rounds.flatten.filter (fun slot => !slot.missing.isEmpty)).map
    (fun slot => ⟨slot.id, slot.missing⟩)

def plannedIds (rounds : List (List Slot)) : List NodeId :=
  rounds.flatten.map Slot.id

/-- The identifiers no round placed, each once, in document order. -/
def unreachableIds (nodes : List Node) (rounds : List (List Slot)) : List NodeId :=
  ((unplanned (plannedIds rounds) nodes).map Node.id).eraseDups

def Plan.ofRounds (rounds : List (List Slot)) : Plan :=
  Plan.ofGroups (rounds.map (fun slots => slots.map Slot.node))

/-- The plan of a document, or why it has none.  Missing inputs are reported
before unreachable nodes. -/
def compile (registry : Registry) (nodes : List Node) (edges : List Edge) :
    Except PlanError Plan :=
  match entryPoint? registry nodes with
  | none => .error .noEntryPoint
  | some entry =>
      let rounds := agenda registry nodes edges entry
      match invalidElements rounds, unreachableIds nodes rounds with
      | [], [] => .ok (Plan.ofRounds rounds)
      | [], ids => .error (.unreachableNodes ids)
      | elements, _ => .error (.invalidInputs elements)

end FlowPlan
