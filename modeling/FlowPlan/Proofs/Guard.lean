import FlowPlan.Flow
import FlowPlan.Proofs.Walk

namespace FlowPlan

/-!
What an accepted connection is known to satisfy.

`Performs`, `Joins` and `Fits` say the rules on the ports of an edge without
the order in which a connection is checked.  A connection is accepted exactly
when it fits and what is behind its target is a tree without its source.
-/

/-- The node that an identifier denotes is of a known type, with this
definition. -/
def Performs (registry : Registry) (nodes : List Node) (id : NodeId) (task : TaskDefinition) :
    Prop :=
  ∃ node, nodeNamed? nodes id = some node ∧ registry node.taskType = some task

/-- An edge goes from this output port to this input port, which both exist on
the tasks at its ends, and the input shows its handle. -/
structure Joins (registry : Registry) (nodes : List Node) (edge : Edge) (output : OutputPort)
    (input : InputPort) : Prop where
  offered : ∃ task handle, Performs registry nodes edge.source task ∧
    edge.sourceHandle = some handle ∧ task.output? handle = some output
  accepted : ∃ task handle, Performs registry nodes edge.target task ∧
    edge.targetHandle = some handle ∧ task.input? handle = some input
  connectable : input.isConnectable = true

/-- An edge joins two ports of the same type. -/
def Fits (registry : Registry) (nodes : List Node) (edge : Edge) : Prop :=
  ∃ output input, Joins registry nodes edge output input ∧ output.portType = input.portType

/-! ## Nodes by their identifier -/

theorem nodeNamed?_some {nodes : List Node} {id : NodeId} {node : Node}
    (found : nodeNamed? nodes id = some node) : node ∈ nodes ∧ node.id = id := by
  unfold nodeNamed? at found
  have selected := List.find?_some found
  exact ⟨List.mem_of_find?_eq_some found, eq_of_beq selected⟩

theorem Performs.mem_ids {registry : Registry} {nodes : List Node} {id : NodeId}
    {task : TaskDefinition} (performs : Performs registry nodes id task) :
    id ∈ nodes.map Node.id := by
  rcases performs with ⟨node, found, _⟩
  rcases nodeNamed?_some found with ⟨member, same⟩
  exact List.mem_map.mpr ⟨node, member, same⟩

theorem Fits.endpoints {registry : Registry} {nodes : List Node} {edge : Edge}
    (fits : Fits registry nodes edge) :
    edge.source ∈ nodes.map Node.id ∧ edge.target ∈ nodes.map Node.id := by
  rcases fits with ⟨_, _, joins, _⟩
  rcases joins.offered with ⟨_, _, source, _⟩
  rcases joins.accepted with ⟨_, _, target, _⟩
  exact ⟨source.mem_ids, target.mem_ids⟩

/-- Whether an edge fits depends on the tasks at its two ends only. -/
theorem Fits.transfer {registry : Registry} {nodes others : List Node} {edge : Edge}
    (sourceKept : forall task, Performs registry nodes edge.source task ->
      Performs registry others edge.source task)
    (targetKept : forall task, Performs registry nodes edge.target task ->
      Performs registry others edge.target task)
    (fits : Fits registry nodes edge) : Fits registry others edge := by
  rcases fits with ⟨output, input, joins, same⟩
  rcases joins.offered with ⟨sourceTask, sourceHandle, source, offers⟩
  rcases joins.accepted with ⟨targetTask, targetHandle, target, accepts⟩
  exact ⟨output, input,
    { offered := ⟨sourceTask, sourceHandle, sourceKept sourceTask source, offers⟩
      accepted := ⟨targetTask, targetHandle, targetKept targetTask target, accepts⟩
      connectable := joins.connectable },
    same⟩

/-! ## The checks of a connection -/

theorem bind_eq_ok_iff {Error First Second : Type} {attempt : Except Error First}
    {next : First -> Except Error Second} {answer : Second} :
    (attempt >>= next) = .ok answer ↔ ∃ value, attempt = .ok value ∧ next value = .ok answer := by
  cases attempt with
  | error error =>
      constructor
      · intro impossible
        cases impossible
      · rintro ⟨_, impossible, _⟩
        cases impossible
  | ok value =>
      constructor
      · intro answered
        exact ⟨value, rfl, answered⟩
      · rintro ⟨_, attempted, answered⟩
        cases attempted
        exact answered

theorem EditError.require_eq_ok_iff {Value : Type} {error : EditError} {value? : Option Value}
    {value : Value} : error.require value? = .ok value ↔ value? = some value := by
  cases value? <;> simp [EditError.require]

theorem taskOf_eq_ok_iff {registry : Registry} {nodes : List Node} {id : NodeId}
    {task : TaskDefinition} :
    taskOf registry nodes id = .ok task ↔ Performs registry nodes id task := by
  simp only [taskOf, bind_eq_ok_iff, EditError.require_eq_ok_iff, Performs]

theorem connectedPorts_eq_ok_iff {registry : Registry} {nodes : List Node} {connection : Edge}
    {output : OutputPort} {input : InputPort} :
    connectedPorts registry nodes connection = .ok (output, input) ↔
      Joins registry nodes connection output input := by
  simp only [connectedPorts, bind_eq_ok_iff, EditError.require_eq_ok_iff, taskOf_eq_ok_iff]
  constructor
  · rintro ⟨sourceTask, source, targetTask, target, sourceHandle, sourceNamed, targetHandle,
      targetNamed, found, offers, reached, accepts, answered⟩
    split at answered
    · rename_i connectable
      cases answered
      exact
        { offered := ⟨sourceTask, sourceHandle, source, sourceNamed, offers⟩
          accepted := ⟨targetTask, targetHandle, target, targetNamed, accepts⟩
          connectable := connectable }
    · cases answered
  · intro joins
    rcases joins.offered with ⟨sourceTask, sourceHandle, source, sourceNamed, offers⟩
    rcases joins.accepted with ⟨targetTask, targetHandle, target, targetNamed, accepts⟩
    exact ⟨sourceTask, source, targetTask, target, sourceHandle, sourceNamed, targetHandle,
      targetNamed, output, offers, input, accepts, if_pos joins.connectable⟩

/-- A connection is accepted exactly when it fits, and what is behind its
target is a tree without its source. -/
theorem validateConnection_eq_ok_iff {registry : Registry} {nodes : List Node}
    {edges : List Edge} {connection : Edge} :
    validateConnection registry nodes edges connection = .ok () ↔
      Fits registry nodes connection ∧
        Clear (DependencyGraph.ofDocument nodes edges).Linked connection.source
          connection.target := by
  unfold validateConnection
  split
  · rename_i same
    constructor
    · intro impossible
      cases impossible
    · rintro ⟨_, clear⟩
      exact absurd same clear.different
  · rename_i different
    rw [bind_eq_ok_iff, ← DependencyGraph.walkCloses_ofDocument_eq_false_iff different]
    constructor
    · rintro ⟨⟨output, input⟩, joined, answered⟩
      by_cases compatible : output.portType = input.portType
      · simp only [compatible, ne_eq, not_true_eq_false, if_false] at answered
        split at answered
        · cases answered
        · rename_i stays
          exact ⟨⟨output, input, connectedPorts_eq_ok_iff.mp joined, compatible⟩,
            eq_false_of_ne_true stays⟩
      · simp only [ne_eq, compatible, not_false_eq_true, if_true] at answered
        cases answered
    · rintro ⟨⟨output, input, joins, compatible⟩, stays⟩
      refine ⟨(output, input), connectedPorts_eq_ok_iff.mpr joins, ?_⟩
      simp only [compatible, ne_eq, not_true_eq_false, if_false, stays, Bool.false_eq_true]

/-- Nothing is to be walked where the target leads nowhere. -/
theorem validateConnection_of_end {registry : Registry} {nodes : List Node} {edges : List Edge}
    {connection : Edge} (fits : Fits registry nodes connection)
    (different : connection.source ≠ connection.target)
    (nothing : (DependencyGraph.ofDocument nodes edges).outgoers connection.target = []) :
    validateConnection registry nodes edges connection = .ok () := by
  refine validateConnection_eq_ok_iff.mpr ⟨fits, clear_of_end different ?_⟩
  intro id linked
  rw [DependencyGraph.Linked, nothing] at linked
  cases linked

theorem feeds_iff_of_named {connection : Edge} {handle : String}
    (named : connection.targetHandle = some handle) {node : NodeId} {input : String} :
    connection.feeds node input = true ↔ node = connection.target ∧ input = handle := by
  rw [connection.feeds_eq_true_iff, named, Option.some.injEq, eq_comm, @eq_comm _ handle]

/-- An accepted connection names both its ports and takes an input that no
edge feeds; drawing it empties the literal of that input. -/
theorem Flow.connect_eq_ok_iff {registry : Registry} {flow changed : Flow} {connection : Edge} :
    flow.connect registry connection = .ok changed ↔
      flow.validate registry connection = .ok () ∧
        ∃ handle, connection.targetHandle = some handle ∧
          feeder? flow.edges connection.target handle = none ∧
          changed =
            { flow with
              nodes := updateNode connection.target (fun node => node.withInput handle "")
                flow.nodes
              edges := flow.edges ++ [connection] } := by
  simp only [Flow.connect, bind_eq_ok_iff, EditError.require_eq_ok_iff]
  constructor
  · rintro ⟨⟨⟩, valid, handle, named, answered⟩
    split at answered
    · cases answered
    · rename_i free
      cases answered
      exact ⟨valid, handle, named, Option.not_isSome_iff_eq_none.mp free, rfl⟩
  · rintro ⟨valid, handle, named, free, rfl⟩
    exact ⟨(), valid, handle, named, by rw [free]; rfl⟩

/-- Drawing an accepted connection closes no cycle, where no edge leaves the
document. -/
theorem acyclic_concat_of_validateConnection {registry : Registry} {nodes : List Node}
    {edges : List Edge} {connection : Edge}
    (inside : forall edge, edge ∈ edges ->
      edge.source ∈ nodes.map Node.id ∧ edge.target ∈ nodes.map Node.id)
    (acyclic : Acyclic edges)
    (valid : validateConnection registry nodes edges connection = .ok ()) :
    Acyclic (edges ++ [connection]) := by
  have clear := (validateConnection_eq_ok_iff.mp valid).2
  rw [DependencyGraph.linked_eq_leads inside] at clear
  exact acyclic.concat clear.apart

end FlowPlan
