import FlowPlan.Proofs.Guard
import FlowPlan.Proofs.Literals
import FlowPlan.Proofs.Supply
import Mathlib.Data.List.Permutation

namespace FlowPlan

/-!
Drawing an edge in a document that has a plan.

The connected input loses its literal and gains its first edge, so that its
node comes to await one more supplier; everything else is provided for as
before.  The guard walked along all edges, and a node awaits no more than its
edges say, so the new supplier does not itself wait for the node.
-/

/-! ## The node at the end of a drawn edge -/

/-- What drawing an edge into an input makes of the nodes of the document. -/
def clearInput (target : NodeId) (handle : String) (node : Node) : Node :=
  if node.id = target then node.withInput handle "" else node

@[simp] theorem id_clearInput (target : NodeId) (handle : String) (node : Node) :
    (clearInput target handle node).id = node.id :=
  id_typeInto target handle "" node

@[simp] theorem taskType_clearInput (target : NodeId) (handle : String) (node : Node) :
    (clearInput target handle node).taskType = node.taskType :=
  taskType_typeInto target handle "" node

theorem clearInput_of_ne {target : NodeId} {node : Node} (handle : String)
    (elsewhere : node.id ≠ target) : clearInput target handle node = node :=
  typeInto_of_ne elsewhere

theorem ne_of_clearInput_ne {target : NodeId} {handle : String} {node entry : Node}
    (elsewhere : entry.id ≠ target) (other : clearInput target handle node ≠ entry) :
    node ≠ entry := by
  rintro rfl
  exact other (clearInput_of_ne handle elsewhere)

theorem literal?_clearInput_self {target : NodeId} {handle : String} {node : Node}
    (here : node.id = target) : (clearInput target handle node).literal? handle = none :=
  (literal?_typeInto_self here).trans (if_pos rfl)

theorem literal?_clearInput_of_ne {target : NodeId} {handle name : String} {node : Node}
    (other : ¬ (node.id = target ∧ name = handle)) :
    (clearInput target handle node).literal? name = node.literal? name :=
  literal?_typeInto_of_ne other

/-! ## What the new edge provides -/

section Connection

variable {registry : Registry} {edges : List Edge} {connection : Edge} {handle : String}
  (named : connection.targetHandle = some handle)
  (free : feeder? edges connection.target handle = none)

include named

/-- An input that the new edge does not feed is as it was. -/
theorem literal?_clearInput_of_not_feeds {node : Node} {input : String}
    (apart : connection.feeds node.id input ≠ true) :
    (clearInput connection.target handle node).literal? input = node.literal? input :=
  literal?_clearInput_of_ne (mt (feeds_iff_of_named named).mpr apart)

include free

theorem feeder?_concat_of_named {node : NodeId} {input : String}
    (feeds : connection.feeds node input = true) :
    feeder? (edges ++ [connection]) node input = some connection := by
  rcases (feeds_iff_of_named named).mp feeds with ⟨rfl, rfl⟩
  exact feeder?_concat_of_feeds free feeds

theorem Provided.connect {ids : Set NodeId} {node : Node} {input : InputPort}
    (source : connection.source ∈ ids) (provided : Provided edges ids node input) :
    Provided (edges ++ [connection]) ids (clearInput connection.target handle node) input := by
  by_cases feeds : connection.feeds node.id input.name = true
  · have first := feeder?_concat_of_named named free feeds
    rw [← id_clearInput connection.target handle node] at first
    exact .edge connection first source
  · apply provided.congr (literal?_clearInput_of_not_feeds named feeds)
    rw [id_clearInput]
    exact feeder?_concat_of_not_feeds feeds

theorem Complete.connect {ids : Set NodeId} {node : Node} (source : connection.source ∈ ids)
    (complete : Complete registry edges ids node) :
    Complete registry (edges ++ [connection]) ids (clearInput connection.target handle node) := by
  rcases complete with ⟨definition, known, provided⟩
  refine ⟨definition, ?_, fun input declared => (provided input declared).connect named free source⟩
  rw [taskType_clearInput]
  exact known

/-- The new edge brings at most one new supplier. -/
theorem mem_suppliers_connect {node : Node} {source : NodeId}
    (supplies : source ∈ suppliers registry (edges ++ [connection])
      (clearInput connection.target handle node)) :
    source ∈ suppliers registry edges node ∨
      (source = connection.source ∧ node.id = connection.target) := by
  rcases mem_suppliers.mp supplies with
    ⟨definition, known, input, declared, untyped, edge, first, rfl⟩
  rw [taskType_clearInput] at known
  rw [id_clearInput] at first
  by_cases feeds : connection.feeds node.id input.name = true
  · rw [feeder?_concat_of_named named free feeds] at first
    cases first
    exact Or.inr ⟨rfl, ((feeds_iff_of_named named).mp feeds).1⟩
  · rw [literal?_clearInput_of_not_feeds named feeds] at untyped
    rw [feeder?_concat_of_not_feeds feeds] at first
    exact Or.inl (mem_suppliers.mpr
      ⟨definition, known, input, declared, untyped, edge, first, rfl⟩)

end Connection

/-! ## A document with an edge more -/

section Document

variable {registry : Registry} {nodes : List Node} {edges : List Edge} {connection : Edge}
  {handle : String} {entry : Node}

/-- Literals have no part in where a document begins. -/
theorem entryPoint?_map_clearInput (target : NodeId) (handle : String) :
    entryPoint? registry (nodes.map (clearInput target handle))
      = (entryPoint? registry nodes).map (clearInput target handle) :=
  entryPoint?_map (taskType_clearInput target handle) nodes

/-- What is awaited after an edge was drawn was awaited before, or is its source. -/
theorem awaits_connect (named : connection.targetHandle = some handle)
    (free : feeder? edges connection.target handle = none)
    (elsewhere : entry.id ≠ connection.target) {source target : NodeId}
    (awaits : Awaits registry (nodes.map (clearInput connection.target handle))
      (edges ++ [connection]) entry source target) :
    Awaits registry nodes edges entry source target ∨
      (source = connection.source ∧ target = connection.target) := by
  rcases awaits with ⟨_, listed, other, rfl, supplies⟩
  rcases List.mem_map.mp listed with ⟨node, member, rfl⟩
  rw [id_clearInput]
  have otherToo := ne_of_clearInput_ne elsewhere other
  rcases mem_suppliers_connect named free supplies with old | ⟨same, here⟩
  · exact Or.inl ⟨node, member, otherToo, rfl, old⟩
  · exact Or.inr ⟨same, here⟩

/-- The links of a plannable document cover all that its nodes await. -/
theorem Plannable.awaits_le_linked (plannable : Plannable registry nodes edges entry) :
    Awaits registry nodes edges entry ≤ (DependencyGraph.ofDocument nodes edges).Linked := by
  intro source target awaits
  have known := plannable.source_mem awaits
  rcases awaits with ⟨node, listed, _, rfl, supplies⟩
  rcases mem_suppliers.mp supplies with ⟨_, _, _, _, _, edge, fed, rfl⟩
  have parts := feeder?_some fed
  exact DependencyGraph.linked_ofDocument_iff.mpr
    ⟨⟨edge, parts.1, rfl, parts.2.1⟩, known, List.mem_map_of_mem listed⟩

theorem Plannable.connect (plannable : Plannable registry nodes edges entry)
    (valid : validateConnection registry nodes edges connection = .ok ())
    (named : connection.targetHandle = some handle)
    (free : feeder? edges connection.target handle = none)
    (elsewhere : entry.id ≠ connection.target) :
    Plannable registry (nodes.map (clearInput connection.target handle)) (edges ++ [connection])
      entry := by
  rcases validateConnection_eq_ok_iff.mp valid with ⟨fits, clear⟩
  refine ⟨?_, ?_, ?_⟩
  · rcases plannable.start with ⟨definition, known, provided⟩
    refine ⟨definition, known, fun input declared => (provided input declared).congr rfl ?_⟩
    apply feeder?_concat_of_not_feeds
    intro feeds
    exact elsewhere ((feeds_iff_of_named named).mp feeds).1
  · intro _ listed other
    rcases List.mem_map.mp listed with ⟨node, member, rfl⟩
    have otherToo := ne_of_clearInput_ne elsewhere other
    have sameIds : (nodes.map (clearInput connection.target handle)).map Node.id
        = nodes.map Node.id := by
      simp [Function.comp_def]
    rw [sameIds]
    exact (plannable.others node member otherToo).connect named free fits.endpoints.1
  · exact not_transGen_of_added (fun _ _ => awaits_connect named free elsewhere) plannable.ordered
      (clear.mono plannable.awaits_le_linked).apart

/-- The node at the end of a drawn edge awaits the node at its beginning. -/
theorem awaits_of_connect (valid : validateConnection registry nodes edges connection = .ok ())
    (named : connection.targetHandle = some handle)
    (free : feeder? edges connection.target handle = none)
    (elsewhere : entry.id ≠ connection.target) :
    Awaits registry (nodes.map (clearInput connection.target handle)) (edges ++ [connection]) entry
      connection.source connection.target := by
  rcases (validateConnection_eq_ok_iff.mp valid).1 with ⟨_, input, joins, _⟩
  rcases joins.accepted with ⟨task, accepting, ⟨node, denoted, known⟩, namedToo, accepts⟩
  cases named.symm.trans namedToo
  rcases nodeNamed?_some denoted with ⟨member, here⟩
  have declared : input ∈ task.inputs := List.mem_of_find?_eq_some accepts
  have name : input.name = handle := by simpa using List.find?_some accepts
  refine ⟨clearInput connection.target handle node, List.mem_map_of_mem member, ?_, ?_, ?_⟩
  · intro same
    apply elsewhere
    rw [← same, id_clearInput, here]
  · rw [id_clearInput, here]
  · apply mem_suppliers.mpr
    refine ⟨task, ?_, input, declared, ?_, connection, ?_, rfl⟩
    · rw [taskType_clearInput]
      exact known
    · rw [name]
      exact literal?_clearInput_self here
    · rw [id_clearInput, here, name]
      exact feeder?_concat_of_named named free ((feeds_iff_of_named named).mpr ⟨rfl, rfl⟩)

end Document

/-- Drawing an accepted edge into a node other than the entry point leaves a
document with a plan one with a plan, and the edge then leads from an earlier
phase to a later one. -/
theorem plan_of_connect {registry : Registry} {flow changed : Flow} {connection : Edge}
    {plan : Plan} (distinct : (flow.nodes.map Node.id).Nodup)
    (planned : flow.compile registry = .ok plan)
    (drawn : flow.connect registry connection = .ok changed)
    (elsewhere : forall entry, entryPoint? registry flow.nodes = some entry ->
      connection.target ≠ entry.id) :
    ∃ later, changed.compile registry = .ok later ∧
      ∃ first second, later.phaseOf? connection.source = some first ∧
        later.phaseOf? connection.target = some second ∧ first < second := by
  rcases planned_of_compile_eq_ok planned with ⟨entry, found, _⟩
  rcases Flow.connect_eq_ok_iff.mp drawn with ⟨valid, handle, named, free, rfl⟩
  have apart : entry.id ≠ connection.target := (elsewhere entry found).symm
  have cleared : updateNode connection.target (fun node => node.withInput handle "") flow.nodes
      = flow.nodes.map (clearInput connection.target handle) :=
    updateNode_eq_map distinct _ _
  have foundToo : entryPoint? registry (flow.nodes.map (clearInput connection.target handle))
      = some entry := by
    rw [entryPoint?_map_clearInput, found, Option.map_some, clearInput_of_ne handle apart]
  have distinctToo : ((flow.nodes.map (clearInput connection.target handle)).map Node.id).Nodup := by
    simpa [Function.comp_def] using distinct
  have plannable := (exists_plan_iff_plannable distinct found).mp ⟨plan, planned⟩
  rcases (exists_plan_iff_plannable distinctToo foundToo).mpr
    (plannable.connect valid named free apart) with ⟨later, plannedToo⟩
  refine ⟨later, ?_, phase_lt_of_awaits distinctToo foundToo plannedToo
    (awaits_of_connect valid named free apart)⟩
  rw [Flow.compile, cleared]
  exact plannedToo

/-- A document with a cycle of shadowed edges, an edge from nowhere, and a node
that only its literal makes early. -/
def shadowedFlow : Flow where
  nodes :=
    [Node.blank "start" "START", Node.blank "base" "STEP", Node.blank "middle" "STEP",
      (Node.blank "free" "STEP").withInput "in" "typed"]
  edges :=
    [joined "start" "base" "in", joined "base" "middle" "in", joined "middle" "base" "in",
      joined "nowhere" "middle" "in"]
  viewport := none

def drawnFlow : Flow where
  nodes :=
    [Node.blank "start" "START", Node.blank "base" "STEP", Node.blank "middle" "STEP",
      ((Node.blank "free" "STEP").withInput "in" "typed").withInput "in" ""]
  edges := shadowedFlow.edges ++ [joined "middle" "free" "in"]
  viewport := none

/-- The node loses its literal and moves behind its new supplier. -/
theorem plan_of_connect_shadowed :
    (shadowedFlow.nodes.map Node.id).Nodup ∧
      (shadowedFlow.compile sampleTasks).map (fun plan => plan.phaseOf? "free") = .ok (some 2) ∧
      shadowedFlow.connect sampleTasks (joined "middle" "free" "in") = .ok drawnFlow ∧
      ∃ later, drawnFlow.compile sampleTasks = .ok later ∧
        ∃ first second, later.phaseOf? "middle" = some first ∧
          later.phaseOf? "free" = some second ∧ first < second := by
  have distinct : (shadowedFlow.nodes.map Node.id).Nodup := by decide
  have planned : shadowedFlow.compile sampleTasks = .ok ⟨[⟨1, [Node.blank "start" "START"]⟩,
      ⟨2, [Node.blank "base" "STEP", (Node.blank "free" "STEP").withInput "in" "typed"]⟩,
      ⟨3, [Node.blank "middle" "STEP"]⟩]⟩ := by rfl
  have drawn : shadowedFlow.connect sampleTasks (joined "middle" "free" "in")
      = .ok drawnFlow := by cbv
  refine ⟨distinct, by rw [planned]; rfl, drawn, plan_of_connect distinct planned drawn ?_⟩
  intro entry found
  have start : entryPoint? sampleTasks shadowedFlow.nodes
      = some (Node.blank "start" "START") := by rfl
  cases start.symm.trans found
  decide

end FlowPlan
