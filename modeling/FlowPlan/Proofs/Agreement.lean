import FlowPlan.Proofs.Session
import FlowPlan.Proofs.Unreached
import Mathlib.Data.List.Permutation

namespace FlowPlan

/-!
What the planner answers to a document that was drawn.

Without cycles every node is planned in the end, and where no edge comes from
outside an edge into an input is as good as a supplier that is planned.  Each
node can then be judged by itself, and all nodes that fail are reported at
once.  The flows of an editing session are of this kind.
-/

/-! ## Inputs judged by themselves -/

/-- Nothing but a literal fills the input, unless it is optional and unfed.
This is what the entry point needs: no node runs before it. -/
def FilledAlone (edges : List Edge) (node : Node) (input : InputPort) : Prop :=
  (node.literal? input.name).isSome ∨
    (input.required = false ∧ feeder? edges node.id input.name = none)

/-- A literal or an edge fills the input, if it is required. -/
def FilledOrFed (edges : List Edge) (node : Node) (input : InputPort) : Prop :=
  input.required = true ->
    (node.literal? input.name).isSome ∨ (feeder? edges node.id input.name).isSome

instance filledAloneDecidable (edges : List Edge) (node : Node) :
    DecidablePred (FilledAlone edges node) :=
  fun _ => inferInstanceAs (Decidable (_ ∨ _))

instance filledOrFedDecidable (edges : List Edge) (node : Node) :
    DecidablePred (FilledOrFed edges node) :=
  fun _ => inferInstanceAs (Decidable (_ -> _))

/-- The task of the node is known, and all its inputs are filled. -/
def Filled (registry : Registry) (filled : InputPort -> Prop) (node : Node) : Prop :=
  ∃ definition, registry node.taskType = some definition ∧
    forall input, input ∈ definition.inputs -> filled input

/-- The inputs that are not filled, in declaration order. -/
def openInputs (registry : Registry) (filled : InputPort -> Prop) [DecidablePred filled]
    (node : Node) : List String :=
  match registry node.taskType with
  | none => [unknownTaskMark]
  | some definition => (definition.inputs.filter (fun input => ¬ filled input)).map InputPort.name

/-- What a node leaves open, each node judged by its place in the document. -/
def gaps (registry : Registry) (edges : List Edge) (entry node : Node) : List String :=
  if node = entry then openInputs registry (FilledAlone edges node) node
  else openInputs registry (FilledOrFed edges node) node

section Inputs

variable {registry : Registry} {edges : List Edge} {filled : InputPort -> Prop}
  [DecidablePred filled] {node : Node}

theorem openInputs_eq_nil_iff :
    openInputs registry filled node = [] ↔ Filled registry filled node := by
  unfold openInputs Filled
  cases registry node.taskType with
  | none => simp
  | some definition => simp [List.filter_eq_nil_iff]

/-- Inputs that are provided just when they are filled are missing just when
they are open. -/
theorem missingInputs_eq_openInputs {planned : List NodeId}
    (same : forall input, Provided edges {id | id ∈ planned} node input ↔ filled input) :
    missingInputs registry edges planned node = openInputs registry filled node := by
  have judged : forall input, isProvided edges planned node input = decide (filled input) := by
    intro input
    rw [Bool.eq_iff_iff, isProvided_eq_true_iff, same, decide_eq_true_iff]
  unfold missingInputs openInputs
  cases registry node.taskType with
  | none => rfl
  | some definition => simp only [judged, decide_not]

theorem filledAlone_of_provided {ids : Set NodeId} {input : InputPort}
    (apart : forall edge, edge ∈ edges -> edge.target = node.id -> edge.source ∉ ids)
    (provided : Provided edges ids node input) : FilledAlone edges node input := by
  cases provided with
  | literal value typed => exact Or.inl (Option.isSome_iff_exists.mpr ⟨value, typed⟩)
  | edge edge first planned =>
      have parts := feeder?_some first
      exact absurd planned (apart edge parts.1 parts.2.1)
  | optional unfed optional => exact Or.inr ⟨optional, unfed⟩

theorem FilledAlone.provided {input : InputPort} (alone : FilledAlone edges node input)
    (ids : Set NodeId) : Provided edges ids node input := by
  rcases alone with typed | ⟨optional, unfed⟩
  · rcases Option.isSome_iff_exists.mp typed with ⟨value, typed⟩
    exact .literal value typed
  · exact .optional unfed optional

theorem filledOrFed_of_provided {ids : Set NodeId} {input : InputPort}
    (provided : Provided edges ids node input) : FilledOrFed edges node input := by
  intro required
  cases provided with
  | literal value typed => exact Or.inl (Option.isSome_iff_exists.mpr ⟨value, typed⟩)
  | edge edge first _ => exact Or.inr (Option.isSome_iff_exists.mpr ⟨edge, first⟩)
  | optional _ optional =>
      rw [optional] at required
      cases required

theorem FilledOrFed.provided {ids : Set NodeId} {input : InputPort}
    (inside : forall edge, edge ∈ edges -> edge.source ∈ ids)
    (fed : FilledOrFed edges node input) : Provided edges ids node input := by
  cases first : feeder? edges node.id input.name with
  | some edge => exact .edge edge first (inside edge (feeder?_some first).1)
  | none =>
      by_cases required : input.required = true
      · have typed := (fed required).resolve_right (by simp [first])
        rcases Option.isSome_iff_exists.mp typed with ⟨value, typed⟩
        exact .literal value typed
      · exact .optional first (eq_false_of_ne_true required)

end Inputs

/-! ## Documents without cycles -/

section Document

variable {registry : Registry} {nodes : List Node} {edges : List Edge} {entry : Node}
  (acyclic : Acyclic edges)
  (inside : forall edge, edge ∈ edges -> edge.source ∈ nodes.map Node.id)

include acyclic in
theorem missingInputs_entry (entry : Node) :
    missingInputs registry edges [entry.id] entry
      = openInputs registry (FilledAlone edges entry) entry := by
  apply missingInputs_eq_openInputs
  intro input
  refine ⟨filledAlone_of_provided ?_, fun alone => alone.provided _⟩
  intro edge member target itself
  exact acyclic entry.id (.single ⟨edge, member, List.mem_singleton.mp itself, target⟩)

include inside in
theorem missingInputs_inside (node : Node) :
    missingInputs registry edges (nodes.map Node.id) node
      = openInputs registry (FilledOrFed edges node) node := by
  apply missingInputs_eq_openInputs
  intro input
  exact ⟨filledOrFed_of_provided, fun fed => fed.provided inside⟩

include acyclic inside

/-- The reports on such a document are the gaps of its nodes. -/
theorem fault_iff_gaps (member : entry ∈ nodes) (element : InvalidElement) :
    Fault registry nodes edges entry
        {id | id ∈ plannedIds (agenda registry nodes edges entry)} element ↔
      ∃ node, node ∈ nodes ∧ gaps registry edges entry node ≠ [] ∧
        element = ⟨node.id, gaps registry edges entry node⟩ := by
  have atEntry : gaps registry edges entry entry
      = missingInputs registry edges [entry.id] entry := by
    rw [gaps, if_pos rfl, missingInputs_entry acyclic]
  have elsewhere : forall node, node ≠ entry -> gaps registry edges entry node
      = missingInputs registry edges (nodes.map Node.id) node := by
    intro node other
    rw [gaps, if_neg other, missingInputs_inside inside]
  have whole : unreachableIds nodes (agenda registry nodes edges entry) = [] :=
    unreachableIds_eq_nil_of_acyclic member acyclic
  have reached := unreachableIds_eq_nil_iff.mp whole
  constructor
  · intro fault
    cases fault with
    | entry missing =>
        rw [← atEntry] at missing ⊢
        exact ⟨entry, member, missing, rfl⟩
    | node node listed other _ missing =>
        rw [← elsewhere node other] at missing ⊢
        exact ⟨node, listed, missing, rfl⟩
  · rintro ⟨node, listed, missing, rfl⟩
    by_cases same : node = entry
    · subst same
      rw [atEntry] at missing ⊢
      exact .entry missing
    · have settled : Settled nodes edges
          {id | id ∈ plannedIds (agenda registry nodes edges entry)} node.id := by
        intro edge _ _ known
        rcases List.mem_map.mp known with ⟨source, sourceListed, sameId⟩
        exact sameId ▸ reached source sourceListed
      rw [elsewhere node same] at missing ⊢
      exact .node node listed same settled missing

end Document

theorem gaps_entry_eq_nil_iff {registry : Registry} {edges : List Edge} {entry : Node} :
    gaps registry edges entry entry = [] ↔ Filled registry (FilledAlone edges entry) entry := by
  rw [gaps, if_pos rfl, openInputs_eq_nil_iff]

theorem gaps_eq_nil_iff_of_ne {registry : Registry} {edges : List Edge} {entry node : Node}
    (other : node ≠ entry) :
    gaps registry edges entry node = [] ↔ Filled registry (FilledOrFed edges node) node := by
  rw [gaps, if_neg other, openInputs_eq_nil_iff]

/-! ## Flows of a session -/

/-- The planner's answer to a flow, told node by node. -/
structure LocallyAnswered (registry : Registry) (flow : Flow) : Prop where
  reachable : forall ids, flow.compile registry ≠ .error (.unreachableNodes ids)
  planned : forall entry, entryPoint? registry flow.nodes = some entry ->
    ((∃ plan, flow.compile registry = .ok plan) ↔
      Filled registry (FilledAlone flow.edges entry) entry ∧
        forall node, node ∈ flow.nodes -> node ≠ entry ->
          Filled registry (FilledOrFed flow.edges node) node)
  reported : forall entry, entryPoint? registry flow.nodes = some entry ->
    (¬ ∃ plan, flow.compile registry = .ok plan) ->
    ∃ elements, flow.compile registry = .error (.invalidInputs elements) ∧
      (elements.map InvalidElement.node).Nodup ∧
      forall element, element ∈ elements ↔
        ∃ node, node ∈ flow.nodes ∧ gaps registry flow.edges entry node ≠ [] ∧
          element = ⟨node.id, gaps registry flow.edges entry node⟩

theorem Sound.locallyAnswered {registry : Registry} {flow : Flow} (sound : Sound registry flow)
    (distinct : (flow.nodes.map Node.id).Nodup) : LocallyAnswered registry flow := by
  have inside : forall edge, edge ∈ flow.edges -> edge.source ∈ flow.nodes.map Node.id :=
    fun edge member => (sound.fits edge member).endpoints.1
  have faults : forall entry, entryPoint? registry flow.nodes = some entry -> forall element,
      Fault registry flow.nodes flow.edges entry
          {id | id ∈ plannedIds (agenda registry flow.nodes flow.edges entry)} element ↔
        ∃ node, node ∈ flow.nodes ∧ gaps registry flow.edges entry node ≠ [] ∧
          element = ⟨node.id, gaps registry flow.edges entry node⟩ :=
    fun entry found element => fault_iff_gaps sound.acyclic inside (entry_mem found) element
  have reached : forall entry, entryPoint? registry flow.nodes = some entry ->
      unreachableIds flow.nodes (agenda registry flow.nodes flow.edges entry) = [] :=
    fun entry found => unreachableIds_eq_nil_of_acyclic (entry_mem found) sound.acyclic
  constructor
  case reachable =>
    intro ids answer
    cases found : entryPoint? registry flow.nodes with
    | none =>
        rw [Flow.compile, compile_of_no_entry found] at answer
        cases answer
    | some entry =>
        rcases (compile_eq_unreachableNodes_iff found ids).mp answer with ⟨_, nonempty, rfl⟩
        exact nonempty (reached entry found)
  case planned =>
    intro entry found
    have whole := unreachableIds_eq_nil_iff.mp (reached entry found)
    rw [Flow.compile, (answered_compile distinct found).planned]
    simp only [faults entry found]
    constructor
    · rintro ⟨faultless, _⟩
      have closed : forall node, node ∈ flow.nodes -> gaps registry flow.edges entry node = [] := by
        intro node listed
        apply Classical.byContradiction
        intro missing
        exact faultless _ ⟨node, listed, missing, rfl⟩
      exact ⟨gaps_entry_eq_nil_iff.mp (closed entry (entry_mem found)),
        fun node listed other => (gaps_eq_nil_iff_of_ne other).mp (closed node listed)⟩
    · rintro ⟨start, others⟩
      refine ⟨?_, whole⟩
      rintro _ ⟨node, listed, missing, rfl⟩
      apply missing
      by_cases same : node = entry
      · rw [same]
        exact gaps_entry_eq_nil_iff.mpr start
      · exact (gaps_eq_nil_iff_of_ne same).mpr (others node listed same)
  case reported =>
    intro entry found unplanned
    have nonempty : invalidElements (agenda registry flow.nodes flow.edges entry) ≠ [] := by
      intro faultless
      exact unplanned ⟨_, (compile_eq_ok_iff found _).mpr ⟨faultless, reached entry found, rfl⟩⟩
    refine ⟨_, (compile_eq_invalidInputs_iff found _).mpr ⟨nonempty, rfl⟩,
      nodup_invalidElements (entry_mem found), fun element => ?_⟩
    rw [mem_invalidElements_agenda_iff distinct (entry_mem found), faults entry found]

/-- A session begins on an empty canvas or in a new workflow. -/
inductive Opened : Flow -> Prop
  | empty : Opened Flow.empty
  | workflow (id : NodeId) : Opened (Flow.withEntryPoint id)

theorem Opened.sound {flow : Flow} (opened : Opened flow) (registry : Registry) :
    Sound registry flow := by
  cases opened with
  | empty => exact sound_empty registry
  | workflow id => exact (sound_empty registry).addNode id .launchBrowser

/-- Where a session has led to distinct identifiers, the planner answers the
flow node by node: it never finds a node unreachable, and it reports every
node with a gap at once. -/
theorem locallyAnswered_of_session (registry : Registry) {start : Flow} (opened : Opened start)
    (edits : List Edit)
    (distinct : ((start.afterEdits registry edits).nodes.map Node.id).Nodup) :
    LocallyAnswered registry (start.afterEdits registry edits) :=
  ((opened.sound registry).afterEdits edits).locallyAnswered distinct

/-- A node is taken out with its edge and drawn anew, and an edge that would
close a cycle is refused. -/
def scrapingSession : List Edit :=
  [.addNode "page" .navigateUrl, .addNode "text" .pageToHtml,
    .connect ((Edge.between "open" "text").withHandles "Web page" "Web page"),
    .removeNode "text", .addNode "text" .pageToHtml,
    .connect ((Edge.between "text" "page").withHandles "Web page" "Web page"),
    .connect ((Edge.between "page" "text").withHandles "Web page" "Web page")]

def scrapingFlow : Flow where
  nodes :=
    [Node.blank "open" "LAUNCH_BROWSER",
      (Node.blank "page" "NAVIGATE_URL").withInput "Web page" "",
      Node.blank "text" "PAGE_TO_HTML"]
  edges := [(Edge.between "text" "page").withHandles "Web page" "Web page"]
  viewport := none

/-- All three nodes are reported, also the one behind a node with a gap. -/
theorem locallyAnswered_scraping :
    (scrapingFlow.nodes.map Node.id).Nodup ∧
      (Flow.withEntryPoint "open").afterEdits Catalog.builtin.lookup scrapingSession
        = scrapingFlow ∧
      LocallyAnswered Catalog.builtin.lookup scrapingFlow ∧
      scrapingFlow.compile Catalog.builtin.lookup
        = .error (.invalidInputs [⟨"open", ["Website URL"]⟩, ⟨"text", ["Web page"]⟩,
            ⟨"page", ["URL"]⟩]) := by
  have distinct : (scrapingFlow.nodes.map Node.id).Nodup := by decide
  have reached : (Flow.withEntryPoint "open").afterEdits Catalog.builtin.lookup scrapingSession
      = scrapingFlow := by cbv
  have answered := locallyAnswered_of_session Catalog.builtin.lookup (.workflow "open")
    scrapingSession (by rw [reached]; exact distinct)
  rw [reached] at answered
  exact ⟨distinct, reached, answered, by rfl⟩

end FlowPlan
