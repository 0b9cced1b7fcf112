import FlowPlan.Proofs.Earliest
import FlowPlan.Proofs.Session

namespace FlowPlan

/-!
What a plan knows of ports.

The port rules are kept where edges are drawn, and nowhere else.  Wiping all
that they are about, the handles at the sources of edges, the outputs of tasks
and the types and hidden handles of inputs, changes no answer of the planner.
So a plan is silent on an edge that was loaded with a document, while an edge
that was drawn keeps the rules through every later edit.
-/

/-! ## Documents without port data -/

/-- Keep the name of an input, and whether it is required. -/
def InputPort.bare (port : InputPort) : InputPort :=
  { port with portType := .string, hideHandle := false, helperText := none }

def TaskDefinition.bare (definition : TaskDefinition) : TaskDefinition :=
  { definition with inputs := definition.inputs.map InputPort.bare, outputs := [] }

def bareRegistry (registry : Registry) : Registry :=
  fun name => (registry name).map TaskDefinition.bare

def Edge.bare (edge : Edge) : Edge := { edge with sourceHandle := none }

section Bare

variable {registry : Registry} {nodes : List Node} {edges : List Edge}

theorem feeder?_bare (edges : List Edge) (node : NodeId) (input : String) :
    feeder? (edges.map Edge.bare) node input = (feeder? edges node input).map Edge.bare :=
  List.find?_map

theorem isProvided_bare (edges : List Edge) (planned : List NodeId) (node : Node)
    (input : InputPort) :
    isProvided (edges.map Edge.bare) planned node input.bare
      = isProvided edges planned node input := by
  have sameName : input.bare.name = input.name := rfl
  rw [isProvided, isProvided, sameName, feeder?_bare]
  cases feeder? edges node.id input.name <;> rfl

theorem missingInputs_bare (registry : Registry) (edges : List Edge) (planned : List NodeId)
    (node : Node) :
    missingInputs (bareRegistry registry) (edges.map Edge.bare) planned node
      = missingInputs registry edges planned node := by
  rw [missingInputs, missingInputs, bareRegistry]
  cases registry node.taskType with
  | none => rfl
  | some definition =>
      simp only [Option.map_some, TaskDefinition.bare, List.filter_map, List.map_map,
        Function.comp_def, isProvided_bare]
      rfl

theorem ofDocument_bare (nodes : List Node) (edges : List Edge) :
    DependencyGraph.ofDocument nodes (edges.map Edge.bare)
      = DependencyGraph.ofDocument nodes edges := by
  rw [DependencyGraph.ofDocument, List.foldl_map]
  rfl

theorem entryPoint?_bare (registry : Registry) (nodes : List Node) :
    entryPoint? (bareRegistry registry) nodes = entryPoint? registry nodes := by
  have same : forall node : Node,
      (bareRegistry registry node.taskType).any TaskDefinition.isEntryPoint
        = (registry node.taskType).any TaskDefinition.isEntryPoint := by
    intro node
    rw [bareRegistry]
    cases registry node.taskType <;> rfl
  simp only [entryPoint?, same]

theorem agenda_bare (registry : Registry) (nodes : List Node) (edges : List Edge) (entry : Node) :
    agenda (bareRegistry registry) nodes (edges.map Edge.bare) entry
      = agenda registry nodes edges entry := by
  apply agenda_congr (missingInputs_bare registry edges _ entry)
  intro planned _ node _ _
  rw [slotFor?, slotFor?, missingInputs_bare, ofDocument_bare]

/-- The planner's answer does not depend on any port data. -/
theorem compile_bare (registry : Registry) (nodes : List Node) (edges : List Edge) :
    compile (bareRegistry registry) nodes (edges.map Edge.bare)
      = compile registry nodes edges := by
  simp only [compile, entryPoint?_bare, agenda_bare]

end Bare

/-! ## Edges that keep the port rules -/

/-- The edge names an output of its source's task, of the type of this input,
and the input shows its handle. -/
def MeetsPort (registry : Registry) (nodes : List Node) (edge : Edge) (port : InputPort) : Prop :=
  ∃ task handle output, Performs registry nodes edge.source task ∧
    edge.sourceHandle = some handle ∧ task.output? handle = some output ∧
    output.portType = port.portType ∧ port.isConnectable = true

theorem Performs.unique {registry : Registry} {nodes : List Node} {id : NodeId}
    {task other : TaskDefinition} (performs : Performs registry nodes id task)
    (performsToo : Performs registry nodes id other) : task = other := by
  rcases performs with ⟨node, found, known⟩
  rcases performsToo with ⟨_, foundToo, knownToo⟩
  cases found.symm.trans foundToo
  exact Option.some.inj (known.symm.trans knownToo)

/-- An edge that fits meets the port it names on the task of its target. -/
theorem Fits.meetsPort {registry : Registry} {nodes : List Node} {edge : Edge} {name : String}
    (fits : Fits registry nodes edge) (named : edge.targetHandle = some name) :
    ∃ task port, Performs registry nodes edge.target task ∧ task.input? name = some port ∧
      MeetsPort registry nodes edge port := by
  rcases fits with ⟨output, port, joins, same⟩
  rcases joins.offered with ⟨sourceTask, handle, source, offeredAs, offers⟩
  rcases joins.accepted with ⟨task, _, target, acceptedAs, accepts⟩
  cases named.symm.trans acceptedAs
  exact ⟨task, port, target, accepts, sourceTask, handle, output, source, offeredAs, offers, same,
    joins.connectable⟩

/-- The planner reads no port data: its answer to any document, plan or error,
is the one to the bare document.  In the plan of a flow that a session reached,
an input without a literal has the source of its first edge in the plan, and
that edge meets the port of the input, unless it was in the document at the
start of the session and broke the rules there.  Where identifiers repeat, the
port is the one of the node that the identifier denotes. -/
theorem ports_of_plan (registry : Registry) :
    (forall nodes edges, compile (bareRegistry registry) nodes (edges.map Edge.bare)
      = compile registry nodes edges) ∧
    forall (start flow : Flow) (edits : List Edit) (plan : Plan),
      start.afterEdits registry edits = flow -> flow.compile registry = .ok plan ->
      forall phase, phase ∈ plan.phases -> forall node, node ∈ phase.nodes ->
        ∃ definition, registry node.taskType = some definition ∧
          forall input, input ∈ definition.inputs -> node.literal? input.name = none ->
          forall edge, feeder? flow.edges node.id input.name = some edge ->
            (∃ number, plan.phaseOf? edge.source = some number) ∧
            ((∃ task port, Performs registry flow.nodes node.id task ∧
                (flow.node? node.id = some node -> task = definition) ∧
                task.input? input.name = some port ∧
                MeetsPort registry flow.nodes edge port) ∨
              (edge ∈ start.edges ∧ ¬ Fits registry start.nodes edge)) := by
  refine ⟨compile_bare registry, ?_⟩
  intro start flow edits plan reached planned phase member node among
  rcases complete_of_plan planned member among with ⟨definition, known, provided⟩
  refine ⟨definition, known, ?_⟩
  intro input declared untyped edge first
  refine ⟨(provided input declared).source_mem untyped first, ?_⟩
  rcases feeder?_some first with ⟨present, target, named⟩
  have upheld : Upholds registry start flow := reached ▸ upholds_afterEdits registry start edits
  rcases upheld edge present with fits | unfit
  · rcases fits.meetsPort named with ⟨task, port, performs, accepts, meets⟩
    rw [target] at performs
    exact Or.inl ⟨task, port, performs, fun denoted => performs.unique ⟨node, denoted, known⟩,
      accepts, meets⟩
  · exact Or.inr unfit

/-- A browser page led into an input that takes a text. -/
def mistypedEdge : Edge := (Edge.between "open" "text").withHandles "Web page" "Html"

def mistypedNode : Node :=
  (Node.blank "text" "EXTRACT_TEXT_FROM_ELEMENT").withInput "Selector" "h1"

def mistypedFlow : Flow where
  nodes := [openedNode, mistypedNode, Node.blank "page" "PAGE_TO_HTML"]
  edges := [mistypedEdge]
  viewport := none

def pageEdge : Edge := (Edge.between "open" "page").withHandles "Web page" "Web page"

/-- The flow with one more edge drawn. -/
def besideFlow : Flow where
  nodes :=
    [openedNode, mistypedNode, (Node.blank "page" "PAGE_TO_HTML").withInput "Web page" ""]
  edges := [mistypedEdge, pageEdge]
  viewport := none

def besidePlan : Plan :=
  ⟨[⟨1, [openedNode]⟩,
    ⟨2, [mistypedNode, (Node.blank "page" "PAGE_TO_HTML").withInput "Web page" ""]⟩]⟩

theorem connect_pageEdge :
    mistypedFlow.connect Catalog.builtin.lookup pageEdge = .ok besideFlow := by
  have fits : Fits Catalog.builtin.lookup mistypedFlow.nodes pageEdge :=
    ⟨TaskKind.webPageOut, TaskKind.webPageIn, connectedPorts_eq_ok_iff.mp (by rfl), by rfl⟩
  have valid : mistypedFlow.validate Catalog.builtin.lookup pageEdge = .ok () :=
    validateConnection_of_end fits (by decide) (by rfl)
  exact Flow.connect_eq_ok_iff.mpr ⟨valid, "Web page", by rfl, by rfl, by rfl⟩

/-- Beside a loaded edge that breaks the rules, the drawn one keeps them. -/
theorem ports_beside_mistyped :
    mistypedFlow.afterEdits Catalog.builtin.lookup [.connect pageEdge] = besideFlow ∧
      besideFlow.compile Catalog.builtin.lookup = .ok besidePlan ∧
      ∃ task port, Performs Catalog.builtin.lookup besideFlow.nodes "page" task ∧
        task.input? "Web page" = some port ∧
        MeetsPort Catalog.builtin.lookup besideFlow.nodes pageEdge port := by
  have reached : mistypedFlow.afterEdits Catalog.builtin.lookup [.connect pageEdge]
      = besideFlow := by
    rw [Flow.afterEdits, List.foldl_cons, List.foldl_nil, Flow.edit, connect_pageEdge]
    rfl
  have planned : besideFlow.compile Catalog.builtin.lookup = .ok besidePlan := by rfl
  refine ⟨reached, planned, ?_⟩
  rcases (ports_of_plan Catalog.builtin.lookup).2 _ _ _ _ reached planned _
    (List.mem_cons_of_mem _ List.mem_cons_self) _ (List.mem_cons_of_mem _ List.mem_cons_self) with
    ⟨definition, known, inputs⟩
  have page : Catalog.builtin.lookup "PAGE_TO_HTML" = some TaskKind.pageToHtml.definition := by rfl
  cases page.symm.trans known
  rcases (inputs TaskKind.webPageIn List.mem_cons_self (by rfl) pageEdge (by rfl)).2 with
    ⟨task, port, performs, _, accepts, meets⟩ | ⟨loaded, _⟩
  · exact ⟨task, port, performs, accepts, meets⟩
  · exact absurd loaded (by decide)

def mistypedPlan : Plan := ⟨[⟨1, [openedNode]⟩, ⟨2, [mistypedNode]⟩]⟩

/-- A loaded edge that no connection check would accept fills the input of a
planned node. -/
theorem mistyped_edge_planned :
    compile Catalog.builtin.lookup [openedNode, mistypedNode] [mistypedEdge] = .ok mistypedPlan ∧
      TaskKind.textIn "Html" ∈ TaskKind.extractTextFromElement.definition.inputs ∧
      mistypedNode.literal? "Html" = none ∧
      feeder? [mistypedEdge] mistypedNode.id "Html" = some mistypedEdge ∧
      ¬ MeetsPort Catalog.builtin.lookup [openedNode, mistypedNode] mistypedEdge
        (TaskKind.textIn "Html") ∧
      validateConnection Catalog.builtin.lookup [openedNode, mistypedNode] [] mistypedEdge
        = .error (.incompatiblePorts "open" .browserInstance "text" .string) := by
  refine ⟨by rfl, List.mem_cons_self, by rfl, by rfl, ?_, by rfl⟩
  rintro ⟨task, handle, output, performs, named, offered, same, _⟩
  have opens : Performs Catalog.builtin.lookup [openedNode, mistypedNode] "open"
      TaskKind.launchBrowser.definition := ⟨openedNode, by rfl, by rfl⟩
  cases performs.unique opens
  cases named
  cases offered
  cases same

end FlowPlan
