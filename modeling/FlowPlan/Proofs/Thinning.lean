import FlowPlan.Proofs.Supply

namespace FlowPlan

/-!
Which edges matter to a plan.

An edge provides where it is the first to feed a declared input, and nothing
is typed into that input.  All other edges are links of the dependency graph
and nothing more.  They delay the report of a node that can never be filled,
so what is reported does depend on them.  A plan does not: where every node
can be filled, a node that misses an input waits for a source that provides
it, and that source is linked to it whatever other links there are.
-/

variable {registry : Registry} {nodes : List Node} {edges others fewer : List Edge}

/-! ## Edges that provide -/

/-- An edge with these edges in front of it is the first to feed a declared
input of its target, and no literal is typed into that input. -/
def Provides (registry : Registry) (nodes : List Node) (before : List Edge) (edge : Edge) : Prop :=
  ∃ node, node ∈ nodes ∧ ∃ definition, definition ∈ registry node.taskType ∧
    ∃ input, input ∈ definition.inputs ∧ node.literal? input.name = none ∧
      edge.feeds node.id input.name = true ∧ feeder? before node.id input.name = none

instance (registry : Registry) (nodes : List Node) (before : List Edge) (edge : Edge) :
    Decidable (Provides registry nodes before edge) :=
  inferInstanceAs (Decidable (∃ node, node ∈ nodes ∧ ∃ definition,
    definition ∈ registry node.taskType ∧ ∃ input, input ∈ definition.inputs ∧
      node.literal? input.name = none ∧ edge.feeds node.id input.name = true ∧
        feeder? before node.id input.name = none))

/-- Some edges are dropped, and none of them provides.  An edge is told from
its copies by its position. -/
def KeepsProviding (registry : Registry) (nodes : List Node) (edges fewer : List Edge) : Prop :=
  ∃ kept : List (Edge × Nat), kept.Sublist edges.zipIdx ∧ fewer = kept.map Prod.fst ∧
    forall marked, marked ∈ edges.zipIdx ->
      Provides registry nodes (edges.take marked.2) marked.1 -> marked ∈ kept

/-- Of a list without repetition, a shorter one that keeps the first value to
pass a test has it as its first one too. -/
theorem find?_of_sublist {Value : Type} {test : Value -> Bool} {values kept : List Value}
    {value : Value} (distinct : values.Nodup) (sublist : kept.Sublist values)
    (first : values.find? test = some value) (member : value ∈ kept) :
    kept.find? test = some value := by
  induction sublist with
  | slnil => cases member
  | cons head sublist ih =>
      have parts := List.nodup_cons.mp distinct
      rw [List.find?_cons] at first
      split at first
      · cases first
        exact absurd (sublist.subset member) parts.1
      · exact ih parts.2 first member
  | cons_cons head sublist ih =>
      have parts := List.nodup_cons.mp distinct
      rw [List.find?_cons] at first ⊢
      split at first
      · exact first
      · rename_i failed
        rcases List.mem_cons.mp member with same | later
        · have passed := List.find?_some first
          rw [same, failed] at passed
          cases passed
        · exact ih parts.2 first later

theorem nodup_zipIdx {Value : Type} (values : List Value) : values.zipIdx.Nodup := by
  apply List.Nodup.of_map Prod.snd
  rw [List.zipIdx_map_snd]
  exact List.nodup_range'

/-- The first edge to feed an input has a position, and no edge before that
feeds the input. -/
theorem exists_position_of_feeder? {node : NodeId} {input : String} {edge : Edge}
    (first : feeder? edges node input = some edge) :
    ∃ position, edges.zipIdx.find? (fun marked => marked.1.feeds node input)
        = some (edge, position) ∧
      feeder? (edges.take position) node input = none := by
  rw [feeder?, List.find?_eq_some_iff_append] at first
  rcases first with ⟨feeds, before, after, rfl, unfed⟩
  refine ⟨before.length, ?_, ?_⟩
  · rw [List.zipIdx_append, List.zipIdx_cons, List.find?_append]
    have none : before.zipIdx.find? (fun marked => marked.1.feeds node input) = none := by
      apply List.find?_eq_none.mpr
      intro marked member
      have among := List.mem_map_of_mem (f := Prod.fst) member
      rw [List.zipIdx_map_fst] at among
      simpa using unfed marked.1 among
    rw [none, Option.none_or, Nat.zero_add]
    exact List.find?_cons_of_pos feeds
  · rw [List.take_left, feeder?, List.find?_eq_none]
    intro earlier member
    simpa using unfed earlier member

/-- What is left has the same first edge into every input that waits for one. -/
theorem KeepsProviding.feeder?_eq (keeps : KeepsProviding registry nodes edges fewer) {node : Node}
    (listed : node ∈ nodes) {definition : TaskDefinition}
    (known : registry node.taskType = some definition) {input : InputPort}
    (declared : input ∈ definition.inputs) (untyped : node.literal? input.name = none) :
    feeder? fewer node.id input.name = feeder? edges node.id input.name := by
  rcases keeps with ⟨kept, sublist, rfl, provided⟩
  cases first : feeder? edges node.id input.name with
  | none =>
      rw [feeder?, List.find?_eq_none] at first ⊢
      intro edge member
      have subset := (sublist.map Prod.fst).subset
      rw [List.zipIdx_map_fst] at subset
      exact first edge (subset member)
  | some edge =>
      rcases exists_position_of_feeder? first with ⟨position, marked, before⟩
      have feeds := List.find?_some first
      have member : (edge, position) ∈ kept :=
        provided (edge, position) (List.mem_of_find?_eq_some marked)
          ⟨node, listed, definition, known, input, declared, untyped, feeds, before⟩
      rw [feeder?, List.find?_map]
      exact congrArg (Option.map Prod.fst)
        (find?_of_sublist (nodup_zipIdx edges) sublist marked member)

/-- Dropping edges that do not provide takes nothing from any node, and gives
it nothing. -/
theorem KeepsProviding.missingInputs_eq (keeps : KeepsProviding registry nodes edges fewer)
    {node : Node} (listed : node ∈ nodes) (planned : List NodeId) :
    missingInputs registry fewer planned node = missingInputs registry edges planned node :=
  missingInputs_of_sources (fun _ known _ declared untyped =>
    congrArg (Option.map Edge.source) (keeps.feeder?_eq listed known declared untyped))

/-! ## Rounds where every node can be filled -/

/-- A node that can be filled is placed as soon as it misses nothing, and not
before: the source of an input that it misses is linked to it. -/
theorem slotFor?_of_complete {planned : List NodeId} {node : Node} (listed : node ∈ nodes)
    (fillable : Complete registry edges {id | id ∈ nodes.map Node.id} node) :
    slotFor? registry edges (DependencyGraph.ofDocument nodes edges) planned node
      = if missingInputs registry edges planned node = [] then some ⟨node, []⟩ else none := by
  split
  · rename_i nothing
    exact slotFor?_eq_some_iff.mpr ⟨by rw [nothing], Or.inl nothing⟩
  · rename_i missing
    have parts := complete_iff_suppliers.mp fillable
    have incomplete : ¬ Complete registry edges {id | id ∈ planned} node :=
      fun complete => missing ((missingInputs_eq_nil_iff registry edges planned node).mpr complete)
    rcases exists_supplier_not_mem parts.1 incomplete with ⟨source, supplies, unplanned⟩
    have linked : source ∈ (DependencyGraph.ofDocument nodes edges).incomers node.id := by
      rcases mem_suppliers.mp supplies with ⟨_, _, input, _, _, edge, first, same⟩
      rcases feeder?_some first with ⟨member, target, _⟩
      exact DependencyGraph.mem_incomers_ofDocument.mpr
        ⟨⟨edge, member, same, target⟩, parts.2 source supplies, List.mem_map_of_mem listed⟩
    -- The source is not planned yet, so the node is not given up either.
    apply Option.eq_none_iff_forall_ne_some.mpr
    intro slot placed
    rcases (slotFor?_eq_some_iff.mp placed).2 with nothing | settled
    · exact missing nothing
    · exact unplanned (settled source linked)

section Rounds

variable {entry : Node}
  (fillable : forall node, node ∈ nodes -> node ≠ entry ->
    Complete registry edges {id | id ∈ nodes.map Node.id} node)
  (same : forall node, node ∈ nodes -> forall planned,
    missingInputs registry others planned node = missingInputs registry edges planned node)

include fillable same

/-- What can be filled with the one list of edges can be with the other. -/
theorem complete_of_missingInputs_eq {node : Node} (listed : node ∈ nodes) (other : node ≠ entry) :
    Complete registry others {id | id ∈ nodes.map Node.id} node := by
  have nothing := (missingInputs_eq_nil_iff registry edges _ node).mpr (fillable node listed other)
  exact (missingInputs_eq_nil_iff registry others _ node).mp ((same node listed _).trans nothing)

theorem agenda_of_missingInputs_eq (member : entry ∈ nodes) :
    agenda registry nodes others entry = agenda registry nodes edges entry := by
  apply agenda_congr (same entry member _)
  intro planned started node listed fresh
  have other : node ≠ entry := by
    rintro rfl
    exact fresh started
  rw [slotFor?_of_complete listed (complete_of_missingInputs_eq fillable same listed other),
    slotFor?_of_complete listed (fillable node listed other), same node listed]

end Rounds

/-- A plan is a plan for every list of edges that fills the same inputs. -/
theorem compile_of_missingInputs_eq (distinct : (nodes.map Node.id).Nodup)
    (same : forall node, node ∈ nodes -> forall planned,
      missingInputs registry others planned node = missingInputs registry edges planned node)
    {plan : Plan} (planned : compile registry nodes edges = .ok plan) :
    compile registry nodes others = .ok plan := by
  rcases planned_of_compile_eq_ok planned with ⟨entry, found, _⟩
  have plannable := (exists_plan_iff_plannable distinct found).mp ⟨plan, planned⟩
  rw [compile_eq_ok_iff found] at planned ⊢
  rwa [agenda_of_missingInputs_eq plannable.others same (entry_mem found)]

/-- Only edges that provide have a part in a plan. -/
theorem compile_eq_ok_iff_of_keepsProviding (distinct : (nodes.map Node.id).Nodup)
    (keeps : KeepsProviding registry nodes edges fewer) (plan : Plan) :
    compile registry nodes edges = .ok plan ↔ compile registry nodes fewer = .ok plan := by
  constructor
  · exact compile_of_missingInputs_eq distinct
      (fun _ listed planned => keeps.missingInputs_eq listed planned)
  · exact compile_of_missingInputs_eq distinct
      (fun _ listed planned => (keeps.missingInputs_eq listed planned).symm)

def thinnedNodes : List Node :=
  [Node.blank "first" "START", (Node.blank "last" "STEP").withInput "in" "typed",
    Node.blank "step" "STEP"]

/-- The edges `last` to `step` and back make a cycle that provides nothing. -/
def crowdedEdges : List Edge :=
  [joined "first" "step" "in", joined "last" "step" "in", joined "step" "last" "in",
    Edge.between "last" "step", joined "absent" "first" "in", joined "step" "last" "elsewhere",
    joined "step" "last" "extra", joined "first" "last" "extra"]

theorem compile_thinned :
    ∃ plan, compile sampleTasks thinnedNodes crowdedEdges = .ok plan ∧
      compile sampleTasks thinnedNodes
        [joined "first" "step" "in", joined "step" "last" "elsewhere", joined "step" "last" "extra"]
          = .ok plan := by
  have keeps : KeepsProviding sampleTasks thinnedNodes crowdedEdges
      [joined "first" "step" "in", joined "step" "last" "elsewhere",
        joined "step" "last" "extra"] :=
    ⟨[(joined "first" "step" "in", 0), (joined "step" "last" "elsewhere", 5),
      (joined "step" "last" "extra", 6)], by decide, rfl, by decide⟩
  have planned : compile sampleTasks thinnedNodes crowdedEdges
      = .ok ⟨[⟨1, [Node.blank "first" "START"]⟩, ⟨2, [Node.blank "step" "STEP"]⟩,
          ⟨3, [(Node.blank "last" "STEP").withInput "in" "typed"]⟩]⟩ := by rfl
  exact ⟨_, planned, (compile_eq_ok_iff_of_keepsProviding (by decide) keeps _).mp planned⟩

end FlowPlan
