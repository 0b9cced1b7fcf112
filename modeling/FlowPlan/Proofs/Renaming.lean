import FlowPlan.Connection
import FlowPlan.Proofs.Reach
import Mathlib.Data.List.Permutation
import Mathlib.Data.Prod.Basic
import Mathlib.Logic.Equiv.Basic

namespace FlowPlan

/-!
Other identifiers for the same document.

Identifiers are compared for equality and nothing else.  A renaming that keeps
them apart therefore carries every step along: the links of the graph, the
slots of a round, the walk behind a target.  What comes out is the renamed
answer, in the same order, so no order on identifiers has a part in it.
-/

/-! ## Renamed values -/

section Values

variable (change : NodeId -> NodeId)

def Node.rename (node : Node) : Node := { node with id := change node.id }

def Edge.rename (edge : Edge) : Edge :=
  { edge with source := change edge.source, target := change edge.target }

def Slot.rename (slot : Slot) : Slot := { slot with node := slot.node.rename change }

def Phase.rename (phase : Phase) : Phase :=
  { phase with nodes := phase.nodes.map (Node.rename change) }

def Plan.rename (plan : Plan) : Plan := ⟨plan.phases.map (Phase.rename change)⟩

def InvalidElement.rename (element : InvalidElement) : InvalidElement :=
  { element with node := change element.node }

def PlanError.rename : PlanError -> PlanError
  | .noEntryPoint => .noEntryPoint
  | .invalidInputs elements => .invalidInputs (elements.map (InvalidElement.rename change))
  | .unreachableNodes ids => .unreachableNodes (ids.map change)

def EditError.rename : EditError -> EditError
  | .nodeNotFound node => .nodeNotFound (change node)
  | .unknownTaskType node taskType => .unknownTaskType (change node) taskType
  | .selfLoop node => .selfLoop (change node)
  | .missingHandle node => .missingHandle (change node)
  | .sourcePortNotFound node port => .sourcePortNotFound (change node) port
  | .targetPortNotFound node port => .targetPortNotFound (change node) port
  | .targetNotConnectable node port => .targetNotConnectable (change node) port
  | .targetAlreadyConnected node port => .targetAlreadyConnected (change node) port
  | .incompatiblePorts source sourceType target targetType =>
      .incompatiblePorts (change source) sourceType (change target) targetType
  | .cycleDetected source target => .cycleDetected (change source) (change target)

def DependencyGraph.rename (graph : DependencyGraph) : DependencyGraph where
  ids := graph.ids.map change
  links := graph.links.map (Prod.map change change)
  closed := by
    intro link member
    rcases List.mem_map.mp member with ⟨old, oldMember, rfl⟩
    exact (graph.closed old oldMember).imp List.mem_map_of_mem List.mem_map_of_mem

end Values

theorem map_id_rename (change : NodeId -> NodeId) (nodes : List Node) :
    (nodes.map (Node.rename change)).map Node.id = (nodes.map Node.id).map change := by
  rw [List.map_map, List.map_map]
  rfl

theorem invalidElements_rename (change : NodeId -> NodeId) (rounds : List (List Slot)) :
    invalidElements (rounds.map (List.map (Slot.rename change)))
      = (invalidElements rounds).map (InvalidElement.rename change) := by
  rw [invalidElements, invalidElements, ← List.map_flatten, List.filter_map, List.map_map,
    List.map_map]
  rfl

theorem plannedIds_rename (change : NodeId -> NodeId) (rounds : List (List Slot)) :
    plannedIds (rounds.map (List.map (Slot.rename change))) = (plannedIds rounds).map change := by
  rw [plannedIds, plannedIds, ← List.map_flatten, List.map_map, List.map_map]
  rfl

theorem ofGroups_rename (change : NodeId -> NodeId) (groups : List (List Node)) :
    Plan.ofGroups (groups.map (List.map (Node.rename change)))
      = (Plan.ofGroups groups).rename change := by
  rw [Plan.ofGroups, Plan.ofGroups, Plan.rename, List.zipIdx_map, List.map_map, List.map_map]
  rfl

theorem ofRounds_rename (change : NodeId -> NodeId) (rounds : List (List Slot)) :
    Plan.ofRounds (rounds.map (List.map (Slot.rename change)))
      = (Plan.ofRounds rounds).rename change := by
  have nodes : forall slots : List Slot, (slots.map (Slot.rename change)).map Slot.node
      = (slots.map Slot.node).map (Node.rename change) := by
    intro slots
    rw [List.map_map, List.map_map]
    rfl
  rw [Plan.ofRounds, Plan.ofRounds, ← ofGroups_rename, List.map_map, List.map_map]
  simp only [Function.comp_def, nodes]

section Injective

variable {change : NodeId -> NodeId} (injective : Function.Injective change)
  {registry : Registry} {nodes : List Node} {edges : List Edge}

include injective

theorem contains_map (ids : List NodeId) (id : NodeId) :
    (ids.map change).contains (change id) = ids.contains id := by
  rw [Bool.eq_iff_iff, List.contains_iff_mem, List.contains_iff_mem,
    List.mem_map_of_injective injective]

/-! ## What a node misses -/

theorem Edge.feeds_rename (edge : Edge) (id : NodeId) (input : String) :
    (edge.rename change).feeds (change id) input = edge.feeds id input := by
  rw [Bool.eq_iff_iff, feeds_eq_true_iff, feeds_eq_true_iff]
  exact and_congr_left' injective.eq_iff

theorem feeder?_rename (edges : List Edge) (id : NodeId) (input : String) :
    feeder? (edges.map (Edge.rename change)) (change id) input
      = (feeder? edges id input).map (Edge.rename change) := by
  rw [feeder?, List.find?_map]
  simp only [Function.comp_def, Edge.feeds_rename injective]
  rfl

theorem isProvided_rename (edges : List Edge) (planned : List NodeId) (node : Node)
    (input : InputPort) :
    isProvided (edges.map (Edge.rename change)) (planned.map change) (node.rename change) input
      = isProvided edges planned node input := by
  have literal : (node.rename change).literal? input.name = node.literal? input.name := rfl
  have feeder : feeder? (edges.map (Edge.rename change)) (node.rename change).id input.name
      = (feeder? edges node.id input.name).map (Edge.rename change) :=
    feeder?_rename injective edges node.id input.name
  rw [isProvided, isProvided, literal, feeder]
  cases feeder? edges node.id input.name with
  | none => rfl
  | some edge =>
      have source : (edge.rename change).source = change edge.source := rfl
      simp only [Option.map_some, source, contains_map injective]

theorem missingInputs_rename (registry : Registry) (edges : List Edge) (planned : List NodeId)
    (node : Node) :
    missingInputs registry (edges.map (Edge.rename change)) (planned.map change)
        (node.rename change)
      = missingInputs registry edges planned node := by
  have task : (node.rename change).taskType = node.taskType := rfl
  simp only [missingInputs, task, isProvided_rename injective]

/-! ## The graph -/

theorem innerEdges_rename (nodes : List Node) (edges : List Edge) :
    innerEdges (nodes.map (Node.rename change)) (edges.map (Edge.rename change))
      = (innerEdges nodes edges).map (Edge.rename change) := by
  have known : forall id, change id ∈ (nodes.map (Node.rename change)).map Node.id ↔
      id ∈ nodes.map Node.id := by
    intro id
    rw [map_id_rename, List.mem_map_of_injective injective]
  rw [innerEdges, List.filter_map, innerEdges]
  simp only [Function.comp_def, Edge.rename, known]

theorem DependencyGraph.ofDocument_rename (nodes : List Node) (edges : List Edge) :
    ofDocument (nodes.map (Node.rename change)) (edges.map (Edge.rename change))
      = (ofDocument nodes edges).rename change := by
  apply eq_of_ids_of_links
  · rw [ids_ofDocument, map_id_rename, eraseDups_map (fun _ _ _ _ same => injective same)]
    exact congrArg (List.map change) (ids_ofDocument nodes edges).symm
  · have both : Function.Injective (Prod.map change change) := injective.prodMap injective
    rw [links_ofDocument, innerEdges_rename injective, List.map_map]
    have ends : Edge.ends ∘ Edge.rename change = Prod.map change change ∘ Edge.ends := rfl
    rw [ends, ← List.map_map, eraseDups_map (fun _ _ _ _ same => both same)]
    exact congrArg (List.map (Prod.map change change)) (links_ofDocument nodes edges).symm

theorem DependencyGraph.incomers_rename (graph : DependencyGraph) (id : NodeId) :
    (graph.rename change).incomers (change id) = (graph.incomers id).map change := by
  rw [incomers, incomers, rename, List.filter_map, List.map_map, List.map_map]
  simp only [Function.comp_def, Prod.map_fst, Prod.map_snd, injective.beq_eq]

theorem DependencyGraph.outgoers_rename (graph : DependencyGraph) (id : NodeId) :
    (graph.rename change).outgoers (change id) = (graph.outgoers id).map change := by
  rw [outgoers, outgoers, rename, List.filter_map, List.map_map, List.map_map]
  simp only [Function.comp_def, Prod.map_fst, Prod.map_snd, injective.beq_eq]

/-- The walk takes the same turns, and closes at the same one. -/
theorem DependencyGraph.walkCloses_rename (graph : DependencyGraph) (source : NodeId)
    (visited pending : List NodeId) :
    (graph.rename change).walkCloses (change source) (visited.map change) (pending.map change)
      = graph.walkCloses source visited pending := by
  fun_induction walkCloses graph source visited pending with
  | case1 visited => rw [List.map_nil, walkCloses]
  | case2 visited current pending seen =>
      have renamed := (List.mem_map_of_injective injective).mpr seen
      rw [List.map_cons, walkCloses, if_pos renamed]
  | case3 visited current pending fresh met =>
      have unseen := mt (List.mem_map_of_injective injective).mp fresh
      have renamed := (List.mem_map_of_injective injective).mpr met
      rw [List.map_cons, walkCloses, if_neg unseen, outgoers_rename injective, if_pos renamed]
  | case4 visited current pending fresh clear ih =>
      have unseen := mt (List.mem_map_of_injective injective).mp fresh
      have unmet := mt (List.mem_map_of_injective injective).mp clear
      rw [List.map_append, List.map_cons] at ih
      rw [List.map_cons, walkCloses, if_neg unseen, outgoers_rename injective, if_neg unmet, ih]

/-! ## Rounds -/

theorem unplanned_rename (planned : List NodeId) (nodes : List Node) :
    unplanned (planned.map change) (nodes.map (Node.rename change))
      = (unplanned planned nodes).map (Node.rename change) := by
  rw [unplanned, List.filter_map, unplanned]
  simp only [Function.comp_def, Node.rename, contains_map injective]

theorem slotFor?_rename (registry : Registry) (edges : List Edge) (graph : DependencyGraph)
    (planned : List NodeId) (node : Node) :
    slotFor? registry (edges.map (Edge.rename change)) (graph.rename change) (planned.map change)
        (node.rename change)
      = (slotFor? registry edges graph planned node).map (Slot.rename change) := by
  have settled : ((graph.rename change).incomers (node.rename change).id).all
        (planned.map change).contains
      = (graph.incomers node.id).all planned.contains := by
    have incomers : (graph.rename change).incomers (node.rename change).id
        = (graph.incomers node.id).map change := graph.incomers_rename injective node.id
    rw [incomers, List.all_map]
    simp only [Function.comp_def, contains_map injective]
  rw [slotFor?, slotFor?, missingInputs_rename injective, settled]
  split <;> rfl

theorem firstSlots_rename (slots : List Slot) :
    firstSlots (slots.map (Slot.rename change)) = (firstSlots slots).map (Slot.rename change) := by
  have ids : forall slot : Slot, (slot.rename change).id = change slot.id := fun _ => rfl
  induction slots with
  | nil => rfl
  | cons slot rest ih =>
      rw [List.map_cons, firstSlots, ih, List.filter_map, firstSlots, List.map_cons]
      simp only [Function.comp_def, ids, bne, injective.beq_eq]

theorem planRound_rename (registry : Registry) (nodes : List Node) (edges : List Edge)
    (graph : DependencyGraph) (planned : List NodeId) :
    planRound registry (nodes.map (Node.rename change)) (edges.map (Edge.rename change))
        (graph.rename change) (planned.map change)
      = (planRound registry nodes edges graph planned).map (Slot.rename change) := by
  rw [planRound, unplanned_rename injective, List.filterMap_map, planRound,
    ← firstSlots_rename injective, List.map_filterMap]
  simp only [Function.comp_def, slotFor?_rename injective]

theorem planRounds_rename (registry : Registry) (nodes : List Node) (edges : List Edge)
    (graph : DependencyGraph) (bound : Nat) (planned : List NodeId) :
    planRounds registry (nodes.map (Node.rename change)) (edges.map (Edge.rename change))
        (graph.rename change) bound (planned.map change)
      = (planRounds registry nodes edges graph bound planned).map
          (List.map (Slot.rename change)) := by
  have count : (graph.rename change).nodeCount = graph.nodeCount := List.length_map change
  induction bound generalizing planned with
  | zero => rfl
  | succ bound ih =>
      have later := ih (planned ++ (planRound registry nodes edges graph planned).map Slot.id)
      rw [List.map_append, List.map_map] at later
      rw [planRounds_succ, planRounds_succ, planRound_rename injective, count, List.length_map,
        List.map_map]
      simp only [List.map_eq_nil_iff]
      split
      · rfl
      · rw [List.map_cons, ← later]
        rfl

theorem agenda_rename (registry : Registry) (nodes : List Node) (edges : List Edge)
    (entry : Node) :
    agenda registry (nodes.map (Node.rename change)) (edges.map (Edge.rename change))
        (entry.rename change)
      = (agenda registry nodes edges entry).map (List.map (Slot.rename change)) := by
  have first : missingInputs registry (edges.map (Edge.rename change)) [(entry.rename change).id]
      (entry.rename change) = missingInputs registry edges [entry.id] entry :=
    missingInputs_rename injective registry edges [entry.id] entry
  have later := planRounds_rename injective registry nodes edges
    (DependencyGraph.ofDocument nodes edges) (nodes.length - 1) [entry.id]
  rw [agenda, first, DependencyGraph.ofDocument_rename injective, List.length_map, agenda,
    List.map_cons, ← later]
  rfl

/-! ## The answer -/

theorem unreachableIds_rename (nodes : List Node) (rounds : List (List Slot)) :
    unreachableIds (nodes.map (Node.rename change)) (rounds.map (List.map (Slot.rename change)))
      = (unreachableIds nodes rounds).map change := by
  rw [unreachableIds, plannedIds_rename, unplanned_rename injective, map_id_rename,
    eraseDups_map (fun _ _ _ _ same => injective same), unreachableIds]

theorem compile_rename (registry : Registry) (nodes : List Node) (edges : List Edge) :
    compile registry (nodes.map (Node.rename change)) (edges.map (Edge.rename change))
      = ((compile registry nodes edges).map (Plan.rename change)).mapError
          (PlanError.rename change) := by
  have keepsTask : forall node : Node, (node.rename change).taskType = node.taskType :=
    fun _ => rfl
  have begins : entryPoint? registry (nodes.map (Node.rename change))
      = (entryPoint? registry nodes).map (Node.rename change) := entryPoint?_map keepsTask nodes
  cases found : entryPoint? registry nodes with
  | none =>
      rw [found] at begins
      rw [compile_of_no_entry found, compile_of_no_entry begins]
      rfl
  | some entry =>
      rw [found] at begins
      simp only [compile, found, begins, Option.map_some, agenda_rename injective,
        invalidElements_rename, unreachableIds_rename injective, ofRounds_rename]
      cases invalidElements (agenda registry nodes edges entry) with
      | nil => cases unreachableIds nodes (agenda registry nodes edges entry) <;> rfl
      | cons element rest => rfl

/-! ## The connection check -/

theorem nodeNamed?_rename (nodes : List Node) (id : NodeId) :
    nodeNamed? (nodes.map (Node.rename change)) (change id)
      = (nodeNamed? nodes id).map (Node.rename change) := by
  rw [nodeNamed?, List.find?_map]
  simp only [Function.comp_def, Node.rename, injective.beq_eq]
  rfl

end Injective

/-! Each check passes its value on or ends with its error, and both are renamed
apart. -/

theorem mapError_bind {Error Other First Second : Type} (change : Error -> Other)
    (attempt : Except Error First) (next : First -> Except Error Second) :
    (attempt >>= next).mapError change
      = attempt.mapError change >>= fun value => (next value).mapError change := by
  cases attempt <;> rfl

theorem EditError.require_rename {Value : Type} (change : NodeId -> NodeId) (error : EditError)
    (value? : Option Value) :
    (error.require value?).mapError (EditError.rename change)
      = (error.rename change).require value? := by
  cases value? <;> rfl

section Checks

variable {change : NodeId -> NodeId} (injective : Function.Injective change)

include injective

theorem taskOf_rename (registry : Registry) (nodes : List Node) (id : NodeId) :
    taskOf registry (nodes.map (Node.rename change)) (change id)
      = (taskOf registry nodes id).mapError (EditError.rename change) := by
  rw [taskOf, taskOf, nodeNamed?_rename injective, mapError_bind]
  cases nodeNamed? nodes id with
  | none => rfl
  | some node =>
      have task := EditError.require_rename change (.unknownTaskType id node.taskType)
        (registry node.taskType)
      exact task.symm

theorem connectedPorts_rename (registry : Registry) (nodes : List Node) (connection : Edge) :
    connectedPorts registry (nodes.map (Node.rename change)) (connection.rename change)
      = (connectedPorts registry nodes connection).mapError (EditError.rename change) := by
  simp only [connectedPorts, mapError_bind, EditError.require_rename, ← taskOf_rename injective,
    apply_ite (Except.mapError (EditError.rename change))]
  rfl

theorem validateConnection_rename (registry : Registry) (nodes : List Node) (edges : List Edge)
    (connection : Edge) :
    validateConnection registry (nodes.map (Node.rename change)) (edges.map (Edge.rename change))
        (connection.rename change)
      = (validateConnection registry nodes edges connection).mapError
          (EditError.rename change) := by
  have loops : (connection.rename change).source = (connection.rename change).target ↔
      connection.source = connection.target := injective.eq_iff
  have walk : ((DependencyGraph.ofDocument nodes edges).rename change).walkCloses
        (connection.rename change).source [] [(connection.rename change).target]
      = (DependencyGraph.ofDocument nodes edges).walkCloses connection.source []
          [connection.target] :=
    DependencyGraph.walkCloses_rename injective _ connection.source [] [connection.target]
  rw [validateConnection, validateConnection]
  by_cases same : connection.source = connection.target
  · rw [if_pos same, if_pos (loops.mpr same)]
    rfl
  · rw [if_neg same, if_neg (mt loops.mp same), mapError_bind, connectedPorts_rename injective,
      DependencyGraph.ofDocument_rename injective, walk]
    simp only [apply_ite (Except.mapError (EditError.rename change))]
    rfl

end Checks

/-- Documents that differ by a renaming of identifiers have answers that differ
by it, and a connection is judged alike in both. -/
theorem answers_rename {change : NodeId -> NodeId} (injective : Function.Injective change)
    (registry : Registry) (nodes : List Node) (edges : List Edge) :
    compile registry (nodes.map (Node.rename change)) (edges.map (Edge.rename change))
      = ((compile registry nodes edges).map (Plan.rename change)).mapError
          (PlanError.rename change) ∧
    forall connection : Edge,
      validateConnection registry (nodes.map (Node.rename change))
          (edges.map (Edge.rename change)) (connection.rename change)
        = (validateConnection registry nodes edges connection).mapError
            (EditError.rename change) :=
  ⟨compile_rename injective registry nodes edges,
    validateConnection_rename injective registry nodes edges⟩

def exchanged : NodeId -> NodeId := Equiv.swap "odd" "right"

/-- One identifier stands twice, one edge comes from outside. -/
def strayNodes : List Node :=
  [Node.blank "right" "STEP", Node.blank "left" "STEP", Node.blank "start" "START",
    Node.blank "odd" "NOPE", Node.blank "left" "STEP"]

def strayEdges : List Edge :=
  [joined "start" "left" "in", joined "left" "right" "extra", joined "absent" "odd" "in"]

/-- The two reported nodes trade their names and keep their places. -/
theorem answers_rename_exchanged :
    Function.Injective exchanged ∧
    compile sampleTasks strayNodes strayEdges
      = .error (.invalidInputs [⟨"odd", [unknownTaskMark]⟩, ⟨"right", ["in"]⟩]) ∧
    compile sampleTasks (strayNodes.map (Node.rename exchanged))
        (strayEdges.map (Edge.rename exchanged))
      = .error (.invalidInputs [⟨"right", [unknownTaskMark]⟩, ⟨"odd", ["in"]⟩]) ∧
    validateConnection sampleTasks (strayNodes.map (Node.rename exchanged))
        (strayEdges.map (Edge.rename exchanged)) (joined "odd" "left" "extra")
      = .error (.cycleDetected "odd" "left") := by
  have injective : Function.Injective exchanged := (Equiv.swap "odd" "right").injective
  have answer : compile sampleTasks strayNodes strayEdges
      = .error (.invalidInputs [⟨"odd", [unknownTaskMark]⟩, ⟨"right", ["in"]⟩]) := by rfl
  have verdict : validateConnection sampleTasks strayNodes strayEdges
      (joined "right" "left" "extra") = .error (.cycleDetected "right" "left") := by cbv
  have renamed := answers_rename injective sampleTasks strayNodes strayEdges
  refine ⟨injective, answer, ?_, ?_⟩
  · rw [renamed.1, answer]
    rfl
  · have connection : (joined "right" "left" "extra").rename exchanged
        = joined "odd" "left" "extra" := by rfl
    rw [← connection, renamed.2, verdict]
    rfl

end FlowPlan
