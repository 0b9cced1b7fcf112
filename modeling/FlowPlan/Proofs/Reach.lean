import FlowPlan.Proofs.Rounds
import Mathlib.Data.List.Nodup
import Mathlib.Order.Bounds.Defs

namespace FlowPlan

/-!
What compiling computes.

`Closed` says which sets of identifiers a schedule cannot leave: they hold the
entry point, and with it every node that misses nothing or has nothing left to
wait for.  The rounds plan exactly the least of these sets, and the answer of
a document can be read off it: `Fault` lists what is reported, and what the
set leaves out is unreachable.
-/

variable {registry : Registry} {nodes : List Node} {edges : List Edge} {entry : Node}

/-! ## Sets of identifiers a schedule cannot leave -/

/-- Every node of the document that an edge connects into `id` is in `ids`. -/
def Settled (nodes : List Node) (edges : List Edge) (ids : Set NodeId) (id : NodeId) : Prop :=
  forall edge, edge ∈ edges -> edge.target = id -> edge.source ∈ nodes.map Node.id ->
    edge.source ∈ ids

structure Closed (registry : Registry) (nodes : List Node) (edges : List Edge) (entry : Node)
    (ids : Set NodeId) : Prop where
  entry : entry.id ∈ ids
  admits : forall node, node ∈ nodes ->
    Complete registry edges ids node ∨ Settled nodes edges ids node.id -> node.id ∈ ids

theorem Settled.mono {ids others : Set NodeId} {id : NodeId} (subset : ids ⊆ others)
    (settled : Settled nodes edges ids id) : Settled nodes edges others id :=
  fun edge member target known => subset (settled edge member target known)

theorem settled_iff {planned : List NodeId} {node : Node} (member : node ∈ nodes) :
    Settled nodes edges {id | id ∈ planned} node.id ↔
      forall id, id ∈ (DependencyGraph.ofDocument nodes edges).incomers node.id ->
        id ∈ planned := by
  constructor
  · intro settled id incomer
    rcases DependencyGraph.mem_incomers_ofDocument.mp incomer with
      ⟨⟨edge, listed, rfl, target⟩, known, _⟩
    exact settled edge listed target known
  · intro incomers edge listed target known
    exact incomers edge.source (DependencyGraph.mem_incomers_ofDocument.mpr
      ⟨⟨edge, listed, rfl, target⟩, known, List.mem_map_of_mem member⟩)

theorem Placed.settles {planned : List NodeId} {slot : Slot}
    (placed : Placed registry nodes edges (DependencyGraph.ofDocument nodes edges) planned slot)
    (missing : slot.missing ≠ []) : Settled nodes edges {id | id ∈ planned} slot.id :=
  (settled_iff placed.member).mpr (placed.settled.resolve_left missing)

/-- What a round may place, every closed set that holds the plan so far has. -/
theorem Closed.holds_placed {ids : Set NodeId} (closed : Closed registry nodes edges entry ids)
    {planned : List NodeId} (within : forall id, id ∈ planned -> id ∈ ids) {slot : Slot}
    (placed : Placed registry nodes edges (DependencyGraph.ofDocument nodes edges) planned slot) :
    slot.id ∈ ids := by
  apply closed.admits slot.node placed.member
  by_cases nothing : slot.missing = []
  · have complete := (missingInputs_eq_nil_iff _ _ _ _).mp (placed.missing.symm.trans nothing)
    exact Or.inl (complete.mono within)
  · exact Or.inr ((placed.settles nothing).mono within)

theorem closed_plannedIds (registry : Registry) (edges : List Edge) (member : entry ∈ nodes) :
    Closed registry nodes edges entry
      {id | id ∈ plannedIds (agenda registry nodes edges entry)} where
  entry := by
    rw [plannedIds_agenda]
    exact List.mem_cons_self
  admits := by
    intro node listed admitted
    apply Classical.byContradiction
    intro fresh
    have ready := admitted.imp (missingInputs_eq_nil_iff _ _ _ _).mpr (settled_iff listed).mp
    rcases exists_mem_planRound listed fresh ready with ⟨slot, placed, _⟩
    rw [planRound_after_agenda registry edges member] at placed
    cases placed

theorem plannedIds_subset_of_closed {ids : Set NodeId}
    (closed : Closed registry nodes edges entry ids) :
    forall id, id ∈ plannedIds (agenda registry nodes edges entry) -> id ∈ ids := by
  rw [plannedIds_agenda]
  apply planRounds_preserve (motive := fun planned => forall id, id ∈ planned -> id ∈ ids)
  · intro planned within id member
    rcases List.mem_append.mp member with before | later
    · exact within id before
    · rcases List.mem_map.mp later with ⟨slot, among, rfl⟩
      exact closed.holds_placed within (placed_of_mem_planRound among)
  · intro id only
    exact List.mem_singleton.mp only ▸ closed.entry

/-- The rounds plan the least set that a schedule cannot leave. -/
theorem isLeast_plannedIds (member : entry ∈ nodes) :
    IsLeast {ids | Closed registry nodes edges entry ids}
      {id | id ∈ plannedIds (agenda registry nodes edges entry)} :=
  ⟨closed_plannedIds registry edges member, fun _ closed => plannedIds_subset_of_closed closed⟩

/-! ## What is reported -/

theorem node_eq_of_id_eq (distinct : (nodes.map Node.id).Nodup) {first second : Node}
    (firstMember : first ∈ nodes) (secondMember : second ∈ nodes) (same : first.id = second.id) :
    first = second :=
  List.inj_on_of_nodup_map distinct firstMember secondMember same

/-- When all that leads into a node is planned, what it misses then it misses
for good. -/
theorem missingInputs_of_settled {planned : List NodeId} {node : Node}
    (known : planned ⊆ nodes.map Node.id)
    (settled : Settled nodes edges {id | id ∈ planned} node.id) :
    missingInputs registry edges planned node
      = missingInputs registry edges (nodes.map Node.id) node := by
  apply missingInputs_congr
  intro input edge first
  have parts := feeder?_some first
  exact ⟨fun planned => known planned, settled edge parts.1 parts.2.1⟩

/-- The reports on a document: on its entry point, checked against itself
alone, and on each other node that is reached with nothing left to wait for. -/
inductive Fault (registry : Registry) (nodes : List Node) (edges : List Edge) (entry : Node)
    (reached : Set NodeId) : InvalidElement -> Prop
  | entry (missing : missingInputs registry edges [entry.id] entry ≠ []) :
      Fault registry nodes edges entry reached
        ⟨entry.id, missingInputs registry edges [entry.id] entry⟩
  | node (node : Node) (member : node ∈ nodes) (other : node ≠ entry)
      (settled : Settled nodes edges reached node.id)
      (missing : missingInputs registry edges (nodes.map Node.id) node ≠ []) :
      Fault registry nodes edges entry reached
        ⟨node.id, missingInputs registry edges (nodes.map Node.id) node⟩

/-- The rounds report exactly the faults. -/
theorem mem_invalidElements_agenda_iff (distinct : (nodes.map Node.id).Nodup)
    (member : entry ∈ nodes) (element : InvalidElement) :
    element ∈ invalidElements (agenda registry nodes edges entry) ↔
      Fault registry nodes edges entry
        {id | id ∈ plannedIds (agenda registry nodes edges entry)} element := by
  have known := (listed_agenda registry edges member).known
  rw [mem_invalidElements]
  constructor
  · rintro ⟨slot, among, missing, rfl⟩
    rcases slot_of_agenda among with rfl | ⟨planned, within, started, placed⟩
    · exact .entry missing
    · have settled := placed.settles missing
      have frozen : slot.missing = missingInputs registry edges (nodes.map Node.id) slot.node :=
        placed.missing.trans (missingInputs_of_settled (List.Subset.trans within known) settled)
      have other : slot.node ≠ entry := fun same => placed.fresh (by
        rw [Slot.id, same]
        exact started)
      rw [frozen] at missing ⊢
      exact .node slot.node placed.member other (settled.mono (fun _ earlier => within earlier))
        missing
  · intro fault
    cases fault with
    | entry missing => exact ⟨_, entrySlot_mem_agenda, missing, rfl⟩
    | node node listed other settled missing =>
        have reached := (closed_plannedIds registry edges member).admits
          node listed (Or.inr settled)
        rcases mem_plannedIds.mp reached with ⟨slot, among, same⟩
        rcases slot_of_agenda among with rfl | ⟨planned, within, _, placed⟩
        · exact absurd (node_eq_of_id_eq distinct listed member same.symm) other
        · have identical := node_eq_of_id_eq distinct placed.member listed same
          have stuck : slot.missing ≠ [] := by
            rw [placed.missing, identical]
            exact missingInputs_ne_nil_of_subset (List.Subset.trans within known) missing
          have frozen : slot.missing = missingInputs registry edges (nodes.map Node.id) node := by
            rw [placed.missing, identical]
            exact missingInputs_of_settled (List.Subset.trans within known)
              (identical ▸ placed.settles stuck)
          refine ⟨slot, among, stuck, ?_⟩
          rw [frozen, same]

theorem nodup_invalidElements (member : entry ∈ nodes) :
    ((invalidElements (agenda registry nodes edges entry)).map InvalidElement.node).Nodup := by
  have listed := (listed_agenda registry edges member).nodup
  rw [invalidElements, List.map_map]
  exact listed.sublist (List.filter_sublist.map Slot.id)

/-- The entry point is reported before all others. -/
theorem head_invalidElements (missing : missingInputs registry edges [entry.id] entry ≠ []) :
    (invalidElements (agenda registry nodes edges entry)).head?
      = some ⟨entry.id, missingInputs registry edges [entry.id] entry⟩ := by
  rw [agenda_eq, invalidElements, List.flatten_cons, List.singleton_append,
    List.filter_cons_of_pos (by simpa [entrySlot] using missing)]
  rfl

/-! ## The answer to a document -/

/-- The task of the node is known and may begin a workflow. -/
def Begins (registry : Registry) (node : Node) : Prop :=
  ∃ definition, registry node.taskType = some definition ∧ definition.isEntryPoint = true

theorem begins_iff (node : Node) :
    Begins registry node ↔ (registry node.taskType).any TaskDefinition.isEntryPoint = true := by
  cases known : registry node.taskType <;> simp [Begins, known]

theorem entryPoint?_eq_none_iff :
    entryPoint? registry nodes = none ↔ forall node, node ∈ nodes -> ¬ Begins registry node := by
  simp only [entryPoint?, List.find?_eq_none, begins_iff]

theorem entryPoint?_of_first {before after : List Node} (split : nodes = before ++ entry :: after)
    (begins : Begins registry entry)
    (first : forall node, node ∈ before -> ¬ Begins registry node) :
    entryPoint? registry nodes = some entry := by
  refine List.find?_eq_some_iff_append.mpr ⟨(begins_iff entry).mp begins, before, after, split, ?_⟩
  intro node earlier
  simpa only [Bool.not_eq_true', Bool.not_eq_true] using
    (not_congr (begins_iff node)).mp (first node earlier)

/-- A document begins with the same node as long as the tasks are the same. -/
theorem entryPoint?_map {change : Node -> Node}
    (keepsTask : forall node, (change node).taskType = node.taskType) (nodes : List Node) :
    entryPoint? registry (nodes.map change) = (entryPoint? registry nodes).map change := by
  simp only [entryPoint?, List.find?_map, Function.comp_def, keepsTask]

/-- How the answer to a document follows from its entry point and the
identifiers reached from there. -/
structure Answered (registry : Registry) (nodes : List Node) (edges : List Edge) (entry : Node)
    (reached : Set NodeId) (answer : Except PlanError Plan) : Prop where
  invalid : (∃ elements, answer = .error (.invalidInputs elements)) ↔
    ∃ element, Fault registry nodes edges entry reached element
  reported : forall elements, answer = .error (.invalidInputs elements) ->
    (elements.map InvalidElement.node).Nodup ∧
      (forall element, element ∈ elements ↔ Fault registry nodes edges entry reached element) ∧
      (missingInputs registry edges [entry.id] entry ≠ [] ->
        elements.head? = some ⟨entry.id, missingInputs registry edges [entry.id] entry⟩)
  unreachable : (∃ ids, answer = .error (.unreachableNodes ids)) ↔
    (forall element, ¬ Fault registry nodes edges entry reached element) ∧
      ∃ node, node ∈ nodes ∧ node.id ∉ reached
  left : forall ids, answer = .error (.unreachableNodes ids) ->
    ids.Sublist (nodes.map Node.id) ∧
      forall id, id ∈ ids ↔ id ∈ nodes.map Node.id ∧ id ∉ reached
  planned : (∃ plan, answer = .ok plan) ↔
    (forall element, ¬ Fault registry nodes edges entry reached element) ∧
      forall node, node ∈ nodes -> node.id ∈ reached

theorem invalidElements_eq_nil_iff (distinct : (nodes.map Node.id).Nodup) (member : entry ∈ nodes) :
    invalidElements (agenda registry nodes edges entry) = [] ↔
      forall element, ¬ Fault registry nodes edges entry
        {id | id ∈ plannedIds (agenda registry nodes edges entry)} element := by
  simp only [List.eq_nil_iff_forall_not_mem, mem_invalidElements_agenda_iff distinct member]

theorem answered_compile (distinct : (nodes.map Node.id).Nodup)
    (found : entryPoint? registry nodes = some entry) :
    Answered registry nodes edges entry
      {id | id ∈ plannedIds (agenda registry nodes edges entry)}
      (compile registry nodes edges) where
  invalid := by
    constructor
    · rintro ⟨elements, answer⟩
      rcases (compile_eq_invalidInputs_iff found elements).mp answer with ⟨nonempty, rfl⟩
      rcases List.exists_mem_of_ne_nil _ nonempty with ⟨element, reported⟩
      exact ⟨element,
        (mem_invalidElements_agenda_iff distinct (entry_mem found) element).mp reported⟩
    · rintro ⟨element, fault⟩
      have reported :=
        (mem_invalidElements_agenda_iff distinct (entry_mem found) element).mpr fault
      exact ⟨_, (compile_eq_invalidInputs_iff found _).mpr ⟨List.ne_nil_of_mem reported, rfl⟩⟩
  reported := by
    intro elements answer
    rcases (compile_eq_invalidInputs_iff found elements).mp answer with ⟨_, rfl⟩
    exact ⟨nodup_invalidElements (entry_mem found),
      mem_invalidElements_agenda_iff distinct (entry_mem found), head_invalidElements⟩
  unreachable := by
    rw [← invalidElements_eq_nil_iff distinct (entry_mem found)]
    constructor
    · rintro ⟨ids, answer⟩
      rcases (compile_eq_unreachableNodes_iff found ids).mp answer with ⟨faultless, nonempty, rfl⟩
      rcases List.exists_mem_of_ne_nil _ nonempty with ⟨id, left⟩
      rcases mem_unreachableIds.mp left with ⟨known, fresh⟩
      rcases List.mem_map.mp known with ⟨node, listed, rfl⟩
      exact ⟨faultless, node, listed, fresh⟩
    · rintro ⟨faultless, node, listed, fresh⟩
      have left := mem_unreachableIds.mpr ⟨List.mem_map_of_mem listed, fresh⟩
      exact ⟨_, (compile_eq_unreachableNodes_iff found _).mpr
        ⟨faultless, List.ne_nil_of_mem left, rfl⟩⟩
  left := by
    intro ids answer
    rcases (compile_eq_unreachableNodes_iff found ids).mp answer with ⟨_, _, rfl⟩
    exact ⟨unreachableIds_sublist _, fun _ => mem_unreachableIds⟩
  planned := by
    rw [← invalidElements_eq_nil_iff distinct (entry_mem found)]
    constructor
    · rintro ⟨plan, answer⟩
      rcases (compile_eq_ok_iff found plan).mp answer with ⟨faultless, complete, _⟩
      exact ⟨faultless, unreachableIds_eq_nil_iff.mp complete⟩
    · rintro ⟨faultless, all⟩
      exact ⟨_, (compile_eq_ok_iff found _).mpr
        ⟨faultless, unreachableIds_eq_nil_iff.mpr all, rfl⟩⟩

/-- Compiling answers by the least set of identifiers that a schedule cannot
leave.  The rounds plan that set and end by themselves: allowing more of them
than there are nodes changes nothing. -/
theorem compile_answers_by_least_closed (registry : Registry) (nodes : List Node)
    (edges : List Edge) (distinct : (nodes.map Node.id).Nodup) :
    (compile registry nodes edges = .error .noEntryPoint ↔
      forall node, node ∈ nodes -> ¬ Begins registry node) ∧
    forall before entry after, nodes = before ++ entry :: after -> Begins registry entry ->
      (forall node, node ∈ before -> ¬ Begins registry node) ->
      ∃ reached, IsLeast {ids | Closed registry nodes edges entry ids} reached ∧
        Answered registry nodes edges entry reached (compile registry nodes edges) ∧
        (forall id, id ∈ plannedIds (agenda registry nodes edges entry) ↔ id ∈ reached) ∧
        forall bound, nodes.length - 1 ≤ bound ->
          planRounds registry nodes edges (DependencyGraph.ofDocument nodes edges) bound [entry.id]
            = planRounds registry nodes edges (DependencyGraph.ofDocument nodes edges)
                (nodes.length - 1) [entry.id] := by
  constructor
  · rw [← entryPoint?_eq_none_iff]
    constructor
    · intro answer
      cases found : entryPoint? registry nodes with
      | none => rfl
      | some entry => exact absurd answer (compile_ne_noEntryPoint found)
    · exact compile_of_no_entry
  · intro before entry after split begins first
    have found := entryPoint?_of_first split begins first
    refine ⟨{id | id ∈ plannedIds (agenda registry nodes edges entry)},
      isLeast_plannedIds (entry_mem found), answered_compile distinct found,
      fun _ => Iff.rfl, ?_⟩
    intro bound enough
    apply planRounds_of_le enough
    have ended := planRound_after_agenda registry edges (entry_mem found)
    rwa [plannedIds_agenda] at ended

def tangledNodes : List Node :=
  [Node.blank "late" "STEP", Node.blank "start" "START", Node.blank "odd" "NOPE",
    Node.blank "left" "STEP", Node.blank "right" "STEP"]

/-- An edge drawn twice, one from nowhere, and a cycle with a loop on it. -/
def tangledEdges : List Edge :=
  [joined "start" "late" "in", joined "start" "late" "in", joined "nowhere" "late" "extra",
    joined "late" "odd" "in", joined "left" "right" "in", joined "right" "left" "in",
    joined "left" "left" "extra"]

/-- The cycle stays out, the node fed from nowhere and the node of unknown
type behind it are both reported. -/
theorem compile_tangled :
    (tangledNodes.map Node.id).Nodup ∧
    ∃ reached,
      IsLeast {ids | Closed sampleTasks tangledNodes tangledEdges
        (Node.blank "start" "START") ids} reached ∧
      "odd" ∈ reached ∧ "left" ∉ reached ∧
      Fault sampleTasks tangledNodes tangledEdges (Node.blank "start" "START") reached
        ⟨"late", ["extra"]⟩ ∧
      compile sampleTasks tangledNodes tangledEdges
        = .error (.invalidInputs [⟨"late", ["extra"]⟩, ⟨"odd", [unknownTaskMark]⟩]) := by
  have distinct : (tangledNodes.map Node.id).Nodup := by decide
  have begins : Begins sampleTasks (Node.blank "start" "START") := ⟨_, rfl, rfl⟩
  have first : forall node, node ∈ [Node.blank "late" "STEP"] -> ¬ Begins sampleTasks node := by
    intro node listed
    rw [List.mem_singleton.mp listed, begins_iff]
    decide
  rcases (compile_answers_by_least_closed sampleTasks tangledNodes tangledEdges distinct).2
    [Node.blank "late" "STEP"] (Node.blank "start" "START") _ rfl begins first with
    ⟨reached, least, answered, planned, _⟩
  have ids : plannedIds (agenda sampleTasks tangledNodes tangledEdges
      (Node.blank "start" "START")) = ["start", "late", "odd"] := by rfl
  have answer : compile sampleTasks tangledNodes tangledEdges
      = .error (.invalidInputs [⟨"late", ["extra"]⟩, ⟨"odd", [unknownTaskMark]⟩]) := by rfl
  refine ⟨distinct, reached, least, ?_, ?_, ?_, answer⟩
  · rw [← planned, ids]
    decide
  · rw [← planned, ids]
    decide
  · exact ((answered.reported _ answer).2.1 _).mp (by decide)

end FlowPlan
