import FlowPlan.Plan.Input
import Mathlib.Data.Set.Basic

namespace FlowPlan

/-!
How what a node misses depends on what is planned.

`Provided` and `Complete` say the rule on an arbitrary set of identifiers.
Planning more never takes anything away from a node, and only the sources of
its first feeding edges matter to it.
-/

/-- An input is provided for when every node of `ids` counts as planned. -/
inductive Provided (edges : List Edge) (ids : Set NodeId) (node : Node) (input : InputPort) : Prop
  | literal (value : String) (typed : node.literal? input.name = some value)
  | edge (edge : Edge) (first : feeder? edges node.id input.name = some edge)
      (planned : edge.source ∈ ids)
  | optional (unfed : feeder? edges node.id input.name = none) (optional : input.required = false)

/-- The task of the node is known and each of its inputs is provided for. -/
def Complete (registry : Registry) (edges : List Edge) (ids : Set NodeId) (node : Node) : Prop :=
  ∃ definition, registry node.taskType = some definition ∧
    forall input, input ∈ definition.inputs -> Provided edges ids node input

theorem Provided.mono {edges : List Edge} {ids others : Set NodeId} {node : Node}
    {input : InputPort} (subset : ids ⊆ others) (provided : Provided edges ids node input) :
    Provided edges others node input := by
  cases provided with
  | literal value typed => exact .literal value typed
  | edge edge first planned => exact .edge edge first (subset planned)
  | optional unfed optional => exact .optional unfed optional

theorem Complete.mono {registry : Registry} {edges : List Edge} {ids others : Set NodeId}
    {node : Node} (subset : ids ⊆ others) (complete : Complete registry edges ids node) :
    Complete registry edges others node := by
  rcases complete with ⟨definition, known, provided⟩
  exact ⟨definition, known, fun input declared => (provided input declared).mono subset⟩

/-- All that matters of an input is its literal and its first edge. -/
theorem Provided.congr {edges others : List Edge} {ids : Set NodeId} {node other : Node}
    {input : InputPort} (literal : other.literal? input.name = node.literal? input.name)
    (feeder : feeder? others other.id input.name = feeder? edges node.id input.name)
    (provided : Provided edges ids node input) : Provided others ids other input := by
  cases provided with
  | literal value typed => exact .literal value (literal.trans typed)
  | edge edge first planned => exact .edge edge (feeder.trans first) planned
  | optional unfed optional => exact .optional (feeder.trans unfed) optional

/-- An input without a literal waits for the source of its first edge. -/
theorem Provided.source_mem {edges : List Edge} {ids : Set NodeId} {node : Node}
    {input : InputPort} {edge : Edge} (provided : Provided edges ids node input)
    (untyped : node.literal? input.name = none)
    (first : feeder? edges node.id input.name = some edge) : edge.source ∈ ids := by
  cases provided with
  | literal value typed => rw [untyped] at typed; cases typed
  | edge feeder firstFeeder planned =>
      cases first.symm.trans firstFeeder
      exact planned
  | optional unfed _ => rw [first] at unfed; cases unfed

/-- An input that nothing fills has to be optional. -/
theorem Provided.not_required {edges : List Edge} {ids : Set NodeId} {node : Node}
    {input : InputPort} (provided : Provided edges ids node input)
    (untyped : node.literal? input.name = none)
    (unfed : feeder? edges node.id input.name = none) : input.required = false := by
  cases provided with
  | literal value typed => rw [untyped] at typed; cases typed
  | edge edge first _ => rw [unfed] at first; cases first
  | optional _ optional => exact optional

theorem isProvided_eq_true_iff (edges : List Edge) (planned : List NodeId) (node : Node)
    (input : InputPort) :
    isProvided edges planned node input = true ↔
      Provided edges {id | id ∈ planned} node input := by
  constructor
  · intro provided
    unfold isProvided at provided
    split at provided
    · rename_i value typed
      exact .literal value typed
    · split at provided
      · rename_i edge first
        exact .edge edge first (List.contains_iff_mem.mp provided)
      · rename_i unfed
        exact .optional unfed (by simpa using provided)
  · intro provided
    unfold isProvided
    split
    · rfl
    · rename_i untyped
      cases provided with
      | literal value typed => rw [untyped] at typed; cases typed
      | edge edge first planned => rw [first]; exact List.contains_iff_mem.mpr planned
      | optional unfed optional => rw [unfed, optional]; rfl

/-- Nothing is missing exactly where the node is complete. -/
theorem missingInputs_eq_nil_iff (registry : Registry) (edges : List Edge)
    (planned : List NodeId) (node : Node) :
    missingInputs registry edges planned node = [] ↔
      Complete registry edges {id | id ∈ planned} node := by
  unfold missingInputs
  constructor
  · intro nothing
    split at nothing
    · cases nothing
    · rename_i definition known
      have filtered := List.map_eq_nil_iff.mp nothing
      refine ⟨definition, known, fun input declared => ?_⟩
      have kept := List.filter_eq_nil_iff.mp filtered input declared
      exact (isProvided_eq_true_iff edges planned node input).mp (by simpa using kept)
  · rintro ⟨definition, known, provided⟩
    rw [known]
    apply List.map_eq_nil_iff.mpr
    apply List.filter_eq_nil_iff.mpr
    intro input declared
    simp [(isProvided_eq_true_iff edges planned node input).mpr (provided input declared)]

theorem mem_missingInputs {registry : Registry} {edges : List Edge} {planned : List NodeId}
    {node : Node} {definition : TaskDefinition} {name : String}
    (known : registry node.taskType = some definition) :
    name ∈ missingInputs registry edges planned node ↔
      ∃ input, input ∈ definition.inputs ∧
        ¬ Provided edges {id | id ∈ planned} node input ∧ input.name = name := by
  simp only [missingInputs, known, List.mem_map, List.mem_filter, Bool.not_eq_true',
    ← Bool.not_eq_true, isProvided_eq_true_iff, and_assoc]

/-- A node that misses something still does when fewer nodes are planned. -/
theorem missingInputs_ne_nil_of_subset {registry : Registry} {edges : List Edge}
    {planned more : List NodeId} {node : Node} (subset : planned ⊆ more)
    (missing : missingInputs registry edges more node ≠ []) :
    missingInputs registry edges planned node ≠ [] := by
  intro nothing
  have complete := (missingInputs_eq_nil_iff registry edges planned node).mp nothing
  exact missing ((missingInputs_eq_nil_iff registry edges more node).mpr
    (complete.mono (fun _ member => subset member)))

/-- Only the sources of the first feeding edges matter to a node. -/
theorem missingInputs_congr {registry : Registry} {edges : List Edge}
    {planned others : List NodeId} {node : Node}
    (same : forall input edge, feeder? edges node.id input = some edge ->
      (edge.source ∈ planned ↔ edge.source ∈ others)) :
    missingInputs registry edges planned node = missingInputs registry edges others node := by
  have provided : forall input : InputPort,
      isProvided edges planned node input = isProvided edges others node input := by
    intro input
    unfold isProvided
    split
    · rfl
    · split
      · rename_i edge first
        exact Bool.eq_iff_iff.mpr (by simpa using same input.name edge first)
      · rfl
  simp only [missingInputs, provided]

/-- Nor does it matter to a node through which ports an edge goes, as long as
it comes from the same source first. -/
theorem missingInputs_of_sources {registry : Registry} {edges others : List Edge}
    {planned : List NodeId} {node : Node}
    (same : forall definition, registry node.taskType = some definition ->
      forall input, input ∈ definition.inputs -> node.literal? input.name = none ->
        (feeder? others node.id input.name).map Edge.source
          = (feeder? edges node.id input.name).map Edge.source) :
    missingInputs registry others planned node = missingInputs registry edges planned node := by
  unfold missingInputs
  split
  · rfl
  · rename_i definition known
    have provided : forall input, input ∈ definition.inputs ->
        isProvided others planned node input = isProvided edges planned node input := by
      intro input declared
      unfold isProvided
      split
      · rfl
      · rename_i untyped
        have sources := same definition known input declared untyped
        cases first : feeder? edges node.id input.name with
        | none =>
            rw [first] at sources
            rw [Option.map_eq_none_iff.mp sources]
        | some edge =>
            rw [first] at sources
            rcases Option.map_eq_some_iff.mp sources with ⟨feeder, found, source⟩
            simp only [found, source]
    rw [List.filter_congr (fun input declared => congrArg not (provided input declared))]

theorem feeder?_some {edges : List Edge} {node : NodeId} {input : String} {edge : Edge}
    (first : feeder? edges node input = some edge) :
    edge ∈ edges ∧ edge.target = node ∧ edge.targetHandle = some input := by
  have feeds := List.find?_some first
  exact ⟨List.mem_of_find?_eq_some first, (edge.feeds_eq_true_iff node input).mp feeds⟩

/-- An added edge is the first to feed an input where nothing fed it. -/
theorem feeder?_concat_of_feeds {edges : List Edge} {edge : Edge} {node : NodeId} {input : String}
    (unfed : feeder? edges node input = none) (feeds : edge.feeds node input = true) :
    feeder? (edges ++ [edge]) node input = some edge := by
  rw [feeder?] at unfed
  rw [feeder?, List.find?_append, unfed, Option.none_or, List.find?_singleton, feeds]
  rfl

theorem feeder?_concat_of_not_feeds {edges : List Edge} {edge : Edge} {node : NodeId}
    {input : String} (apart : edge.feeds node input ≠ true) :
    feeder? (edges ++ [edge]) node input = feeder? edges node input := by
  rw [feeder?, List.find?_append, List.find?_singleton, if_neg apart, Option.or_none, feeder?]

/-! ## Whom a node waits for -/

/-- The sources of the first edges into the declared inputs without a literal. -/
def suppliers (registry : Registry) (edges : List Edge) (node : Node) : List NodeId :=
  match registry node.taskType with
  | none => []
  | some definition =>
      definition.inputs.filterMap (fun input =>
        match node.literal? input.name with
        | some _ => none
        | none => (feeder? edges node.id input.name).map Edge.source)

theorem mem_suppliers {registry : Registry} {edges : List Edge} {node : Node} {source : NodeId} :
    source ∈ suppliers registry edges node ↔
      ∃ definition, registry node.taskType = some definition ∧
        ∃ input, input ∈ definition.inputs ∧ node.literal? input.name = none ∧
          ∃ edge, feeder? edges node.id input.name = some edge ∧ edge.source = source := by
  unfold suppliers
  cases known : registry node.taskType with
  | none => simp
  | some definition =>
      simp only [List.mem_filterMap, Option.some.injEq, exists_eq_left']
      constructor
      · rintro ⟨input, declared, found⟩
        split at found
        · cases found
        · rename_i untyped
          exact ⟨input, declared, untyped, Option.map_eq_some_iff.mp found⟩
      · rintro ⟨input, declared, untyped, fed⟩
        refine ⟨input, declared, ?_⟩
        rw [untyped]
        exact Option.map_eq_some_iff.mpr fed

/-- A node is complete where it would be with everything planned and all its
suppliers are. -/
theorem complete_iff_suppliers {registry : Registry} {edges : List Edge} {ids : Set NodeId}
    {node : Node} :
    Complete registry edges ids node ↔
      Complete registry edges Set.univ node ∧
        forall source, source ∈ suppliers registry edges node -> source ∈ ids := by
  constructor
  · intro complete
    refine ⟨complete.mono (Set.subset_univ ids), ?_⟩
    intro source supplies
    rcases complete with ⟨definition, known, provided⟩
    rcases mem_suppliers.mp supplies with ⟨other, same, input, declared, untyped, edge, first, rfl⟩
    cases known.symm.trans same
    exact (provided input declared).source_mem untyped first
  · rintro ⟨⟨definition, known, provided⟩, planned⟩
    refine ⟨definition, known, fun input declared => ?_⟩
    cases typed : node.literal? input.name with
    | some value => exact .literal value typed
    | none =>
        cases provided input declared with
        | literal value typedToo => rw [typed] at typedToo; cases typedToo
        | edge edge first _ =>
            exact .edge edge first (planned edge.source
              (mem_suppliers.mpr ⟨definition, known, input, declared, typed, edge, first, rfl⟩))
        | optional unfed optional => exact .optional unfed optional

/-- A node that is not complete yet waits for one of its suppliers. -/
theorem exists_supplier_not_mem {registry : Registry} {edges : List Edge} {ids : Set NodeId}
    {node : Node} (fillable : Complete registry edges Set.univ node)
    (incomplete : ¬ Complete registry edges ids node) :
    ∃ source, source ∈ suppliers registry edges node ∧ source ∉ ids := by
  apply Classical.byContradiction
  intro none
  apply incomplete
  refine complete_iff_suppliers.mpr ⟨fillable, fun source supplies => ?_⟩
  exact Classical.byContradiction (fun absent => none ⟨source, supplies, absent⟩)

/-! ## A small registry to show runs with -/

/-- Two kinds of task: one that begins a workflow, and one that takes a text. -/
def sampleTasks : Registry := fun name =>
  if name = "START" then some ⟨"Start", [], [⟨"out", .string⟩], true⟩
  else if name = "STEP" then
    some ⟨"Step", [InputPort.needed "in" .string, InputPort.optional "extra" .string],
      [⟨"out", .string⟩], false⟩
  else none

def joined (source target input : String) : Edge :=
  (Edge.between source target).withHandles "out" input

end FlowPlan
