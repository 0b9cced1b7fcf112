import FlowPlan.Dependency
import FlowPlan.EditError

namespace FlowPlan

/-!
Which connections may be drawn.

A connection joins an output port to a connectable input port of the same
type, on two different nodes of known task types, and must not close a cycle.
The last test walks everything downstream of the target.  It refuses when the
walk meets the source, and also when it comes to some node a second time.
-/

namespace DependencyGraph

def unvisited (graph : DependencyGraph) (visited : List NodeId) : List NodeId :=
  graph.ids.filter (fun id => !visited.contains id)

theorem unvisited_cons (graph : DependencyGraph) (visited : List NodeId) (id : NodeId) :
    graph.unvisited (id :: visited)
      = (graph.unvisited visited).filter (fun other => decide (other ≠ id)) := by
  simp only [unvisited, List.filter_filter]
  apply List.filter_congr
  intro other _
  simp

theorem length_unvisited_cons_le (graph : DependencyGraph) (visited : List NodeId) (id : NodeId) :
    (graph.unvisited (id :: visited)).length ≤ (graph.unvisited visited).length := by
  rw [unvisited_cons]
  exact List.length_filter_le _ _

theorem length_unvisited_cons_lt {graph : DependencyGraph} {visited : List NodeId} {id : NodeId}
    (known : id ∈ graph.ids) (fresh : id ∉ visited) :
    (graph.unvisited (id :: visited)).length < (graph.unvisited visited).length := by
  rw [unvisited_cons, List.length_filter_lt_length_iff_exists]
  refine ⟨id, List.mem_filter.mpr ⟨known, ?_⟩, by simp⟩
  simpa using fresh

/-- Walk from the pending nodes along their links, each node to be met once.
The walk closes when it comes to a visited node again or meets `source`.
Each step either visits a new node of the graph or drops a pending one. -/
def walkCloses (graph : DependencyGraph) (source : NodeId) (visited : List NodeId) :
    List NodeId -> Bool
  | [] => false
  | current :: pending =>
      if current ∈ visited then true
      else if source ∈ graph.outgoers current then true
      else walkCloses graph source (current :: visited) (graph.outgoers current ++ pending)
termination_by pending => ((graph.unvisited visited).length, pending.length)
decreasing_by
  by_cases known : current ∈ graph.ids
  · exact Prod.Lex.left _ _ (length_unvisited_cons_lt known (by assumption))
  · rw [outgoers_of_not_mem known]
    rcases Nat.lt_or_eq_of_le (length_unvisited_cons_le graph visited current) with less | same
    · exact Prod.Lex.left _ _ less
    · rw [same]
      exact Prod.Lex.right _ (Nat.lt_succ_self _)

end DependencyGraph

/-- The task of the node an identifier denotes. -/
def taskOf (registry : Registry) (nodes : List Node) (id : NodeId) :
    Except EditError TaskDefinition := do
  let node <- (EditError.nodeNotFound id).require (nodeNamed? nodes id)
  (EditError.unknownTaskType id node.taskType).require (registry node.taskType)

section Validation

variable (registry : Registry) (nodes : List Node) (edges : List Edge) (connection : Edge)

/-- The two ports a connection joins, each looked up on its own node. -/
def connectedPorts : Except EditError (OutputPort × InputPort) := do
  let sourceTask <- taskOf registry nodes connection.source
  let targetTask <- taskOf registry nodes connection.target
  let sourceHandle <-
    (EditError.missingHandle connection.source).require connection.sourceHandle
  let targetHandle <-
    (EditError.missingHandle connection.target).require connection.targetHandle
  let output <-
    (EditError.sourcePortNotFound connection.source sourceHandle).require
      (sourceTask.output? sourceHandle)
  let input <-
    (EditError.targetPortNotFound connection.target targetHandle).require
      (targetTask.input? targetHandle)
  if input.isConnectable then .ok (output, input)
  else .error (.targetNotConnectable connection.target targetHandle)

/-- Accept a connection, or name the first rule that it breaks. -/
def validateConnection : Except EditError Unit :=
  if connection.source = connection.target then .error (.selfLoop connection.source)
  else do
    let (output, input) <- connectedPorts registry nodes connection
    if output.portType ≠ input.portType then
      .error
        (.incompatiblePorts connection.source output.portType connection.target input.portType)
    else if (DependencyGraph.ofDocument nodes edges).walkCloses connection.source []
        [connection.target] then
      .error (.cycleDetected connection.source connection.target)
    else .ok ()

end Validation

end FlowPlan
