import FlowPlan.Proofs.Literals
import FlowPlan.Proofs.Reach
import FlowPlan.Task.Catalog

namespace FlowPlan

/-!
Repairing a document by typing all that was reported as missing.

A node that is reported has been placed all the same, so that the nodes
behind it were examined too.  The nodes that are not placed have nothing typed
into them.  Hence the repaired document is planned as far as the broken one
was, and nothing is reported of it: no fault hides behind another.
-/

variable {registry : Registry} {nodes : List Node} {edges : List Edge} {entry : Node}
  {change : Node -> Node}

/-! ## What is planned after nodes have gained literals -/

theorem ids_map_of_moreTyped (more : forall node, MoreTyped node (change node))
    (nodes : List Node) : (nodes.map change).map Node.id = nodes.map Node.id := by
  rw [List.map_map]
  exact List.map_congr_left (fun node _ => (more node).id)

theorem settled_map_iff (more : forall node, MoreTyped node (change node)) {ids : Set NodeId}
    {id : NodeId} :
    Settled (nodes.map change) edges ids id ↔ Settled nodes edges ids id := by
  rw [Settled, Settled, ids_map_of_moreTyped more]

/-- Where only nodes that were planned gain literals, the same identifiers are
planned afterwards. -/
theorem mem_plannedIds_map_iff (member : entry ∈ nodes)
    (more : forall node, MoreTyped node (change node))
    (kept : forall node, node ∈ nodes ->
      node.id ∉ plannedIds (agenda registry nodes edges entry) -> change node = node)
    (id : NodeId) :
    id ∈ plannedIds (agenda registry (nodes.map change) edges (change entry)) ↔
      id ∈ plannedIds (agenda registry nodes edges entry) := by
  have before := closed_plannedIds registry edges member
  have after := closed_plannedIds registry edges (List.mem_map_of_mem (f := change) member)
  have newClosed : Closed registry (nodes.map change) edges (change entry)
      {id | id ∈ plannedIds (agenda registry nodes edges entry)} := by
    -- A node that was left out is as it was, so that it stays out.
    refine ⟨?_, ?_⟩
    · rw [(more entry).id]
      exact before.entry
    · intro _ listed admitted
      rcases List.mem_map.mp listed with ⟨node, nodeListed, rfl⟩
      apply Classical.byContradiction
      intro fresh
      rw [(more node).id] at fresh
      rw [kept node nodeListed fresh, settled_map_iff more] at admitted
      exact fresh (before.admits node nodeListed admitted)
  have oldClosed : Closed registry nodes edges entry
      {id | id ∈ plannedIds (agenda registry (nodes.map change) edges (change entry))} := by
    refine ⟨?_, ?_⟩
    · rw [← (more entry).id]
      exact after.entry
    · intro node listed admitted
      rw [← (more node).id]
      apply after.admits (change node) (List.mem_map_of_mem listed)
      rw [(more node).id, settled_map_iff more]
      exact admitted.imp_left (fun complete => complete.moreTyped (more node))
  exact ⟨plannedIds_subset_of_closed newClosed id, plannedIds_subset_of_closed oldClosed id⟩

theorem unreachableIds_map_eq (member : entry ∈ nodes)
    (more : forall node, MoreTyped node (change node))
    (kept : forall node, node ∈ nodes ->
      node.id ∉ plannedIds (agenda registry nodes edges entry) -> change node = node) :
    unreachableIds (nodes.map change) (agenda registry (nodes.map change) edges (change entry))
      = unreachableIds nodes (agenda registry nodes edges entry) := by
  rw [unreachableIds_eq, unreachableIds_eq, ids_map_of_moreTyped more]
  apply List.filter_congr
  intro id _
  congr 1
  rw [Bool.eq_iff_iff, List.contains_iff_mem, List.contains_iff_mem]
  exact mem_plannedIds_map_iff member more kept id

/-! ## What is reported after the reports were followed -/

/-- The change types every input that the report on a document names, and the
nodes named there are of known types. -/
structure Heals (registry : Registry) (nodes : List Node) (elements : List InvalidElement)
    (change : Node -> Node) : Prop where
  more : forall node, MoreTyped node (change node)
  known : forall node, node ∈ nodes -> node.id ∈ elements.map InvalidElement.node ->
    ∃ definition, registry node.taskType = some definition
  typed : forall element, element ∈ elements -> forall node, node ∈ nodes ->
    node.id = element.node -> forall name, name ∈ element.inputs ->
      ((change node).literal? name).isSome

theorem Heals.missingInputs_eq_nil {elements : List InvalidElement} {planned : List NodeId}
    (heals : Heals registry nodes elements change) {node : Node} (listed : node ∈ nodes)
    (reported : missingInputs registry edges planned node ≠ [] ->
      ⟨node.id, missingInputs registry edges planned node⟩ ∈ elements) :
    missingInputs registry edges planned (change node) = [] := by
  by_cases nothing : missingInputs registry edges planned node = []
  · have complete := (missingInputs_eq_nil_iff registry edges planned node).mp nothing
    exact (missingInputs_eq_nil_iff registry edges planned (change node)).mpr
      (complete.moreTyped (heals.more node))
  · have among := reported nothing
    rcases heals.known node listed (List.mem_map.mpr ⟨_, among, rfl⟩) with ⟨definition, known⟩
    exact missingInputs_eq_nil_of_typed known (heals.more node)
      (heals.typed _ among node listed rfl)

theorem Heals.invalidElements_eq_nil (distinct : (nodes.map Node.id).Nodup)
    (member : entry ∈ nodes)
    (heals : Heals registry nodes (invalidElements (agenda registry nodes edges entry)) change)
    (kept : forall node, node ∈ nodes ->
      node.id ∉ plannedIds (agenda registry nodes edges entry) -> change node = node) :
    invalidElements (agenda registry (nodes.map change) edges (change entry)) = [] := by
  have sameIds := ids_map_of_moreTyped heals.more nodes
  have reported : forall element, Fault registry nodes edges entry
      {id | id ∈ plannedIds (agenda registry nodes edges entry)} element ->
        element ∈ invalidElements (agenda registry nodes edges entry) :=
    fun element => (mem_invalidElements_agenda_iff distinct member element).mpr
  rw [invalidElements_eq_nil_iff (sameIds ▸ distinct) (List.mem_map_of_mem member)]
  intro element fault
  cases fault with
  | entry missing =>
      apply missing
      rw [(heals.more entry).id]
      exact heals.missingInputs_eq_nil member
        (fun missing => reported _ (.entry missing))
  | node _ listed other settled missing =>
      rcases List.mem_map.mp listed with ⟨node, nodeListed, rfl⟩
      apply missing
      rw [sameIds]
      apply heals.missingInputs_eq_nil nodeListed
      intro missing
      apply reported
      refine .node node nodeListed (fun same => other (congrArg change same)) ?_ missing
      rw [(heals.more node).id, settled_map_iff heals.more] at settled
      exact settled.mono (fun id planned =>
        (mem_plannedIds_map_iff member heals.more kept id).mp planned)

/-! ## Whole repairs -/

/-- A value for each of the reported inputs and for no other, in any order. -/
structure Repairs (elements : List InvalidElement) (fillings : List Filling) : Prop where
  nonempty : forall filling, filling ∈ fillings -> filling.value ≠ ""
  exact : forall node input,
    (∃ filling, filling ∈ fillings ∧ filling.node = node ∧ filling.input = input) ↔
      ∃ element, element ∈ elements ∧ element.node = node ∧ input ∈ element.inputs

theorem Repairs.node_mem {elements : List InvalidElement} {fillings : List Filling}
    (repairs : Repairs elements fillings) {filling : Filling} (member : filling ∈ fillings) :
    filling.node ∈ elements.map InvalidElement.node := by
  rcases (repairs.exact filling.node filling.input).mp ⟨filling, member, rfl, rfl⟩ with
    ⟨element, reported, same, _⟩
  exact List.mem_map.mpr ⟨element, reported, same⟩

theorem Repairs.heals {elements : List InvalidElement} {fillings : List Filling}
    (repairs : Repairs elements fillings)
    (known : forall node, node ∈ nodes -> node.id ∈ elements.map InvalidElement.node ->
      ∃ definition, registry node.taskType = some definition) :
    Heals registry nodes elements (fillNode fillings) where
  more := moreTyped_fillNode repairs.nonempty
  known := known
  typed := by
    intro element reported node _ here name missing
    rcases (repairs.exact node.id name).mpr ⟨element, reported, here.symm, missing⟩ with
      ⟨filling, member, target, rfl⟩
    exact isSome_literal?_fillNode repairs.nonempty member target

/-- Typing a value into every reported input, in any order, leaves nothing to
report: the document then has a plan, or it leaves out just the nodes that were
left out before. -/
theorem compile_of_repairs {flow : Flow} {elements : List InvalidElement}
    {fillings : List Filling} (distinct : (flow.nodes.map Node.id).Nodup)
    (reported : flow.compile registry = .error (.invalidInputs elements))
    (known : forall node, node ∈ flow.nodes -> node.id ∈ elements.map InvalidElement.node ->
      ∃ definition, registry node.taskType = some definition)
    (repairs : Repairs elements fillings) :
    ∃ entry repaired, entryPoint? registry flow.nodes = some entry ∧
      flow.fill fillings = .ok repaired ∧
      ((unreachableIds flow.nodes (agenda registry flow.nodes flow.edges entry) = [] ∧
          ∃ plan, repaired.compile registry = .ok plan) ∨
        (unreachableIds flow.nodes (agenda registry flow.nodes flow.edges entry) ≠ [] ∧
          repaired.compile registry = .error (.unreachableNodes
            (unreachableIds flow.nodes (agenda registry flow.nodes flow.edges entry))))) := by
  cases found : entryPoint? registry flow.nodes with
  | none =>
      rw [Flow.compile, compile_of_no_entry found] at reported
      cases reported
  | some entry =>
      have member := entry_mem found
      rcases (compile_eq_invalidInputs_iff found elements).mp reported with ⟨_, rfl⟩
      have heals := repairs.heals known
      have planned : forall filling, filling ∈ fillings ->
          filling.node ∈ plannedIds (agenda registry flow.nodes flow.edges entry) := by
        intro filling among
        rcases List.mem_map.mp (repairs.node_mem among) with ⟨element, reported, same⟩
        exact same ▸ mem_plannedIds_of_mem_invalidElements reported
      have kept : forall node, node ∈ flow.nodes ->
          node.id ∉ plannedIds (agenda registry flow.nodes flow.edges entry) ->
            fillNode fillings node = node := by
        intro node _ fresh
        exact fillNode_of_ne (fun filling among same => fresh (same ▸ planned filling among))
      have filled := Flow.fill_eq_ok distinct (fun filling among =>
        (listed_agenda registry flow.edges member).known (planned filling among))
      have foundToo : entryPoint? registry (flow.nodes.map (fillNode fillings))
          = some (fillNode fillings entry) := by
        rw [entryPoint?_map (fun node => (heals.more node).taskType), found, Option.map_some]
      have faultless := heals.invalidElements_eq_nil distinct member kept
      have leftSame := unreachableIds_map_eq member heals.more kept
      refine ⟨entry, _, rfl, filled, ?_⟩
      by_cases left : unreachableIds flow.nodes
          (agenda registry flow.nodes flow.edges entry) = []
      · exact Or.inl ⟨left, _,
          (compile_eq_ok_iff foundToo _).mpr ⟨faultless, leftSame.trans left, rfl⟩⟩
      · exact Or.inr ⟨left,
          (compile_eq_unreachableNodes_iff foundToo _).mpr ⟨faultless, left, leftSame.symm⟩⟩

/-- Two faults, one behind the other, beside a cycle. -/
def brokenFlow : Flow where
  nodes :=
    [Node.blank "text" "EXTRACT_TEXT_FROM_ELEMENT", Node.blank "open" "LAUNCH_BROWSER",
      Node.blank "page" "PAGE_TO_HTML", (Node.blank "left" "NAVIGATE_URL").withInput "URL" "typed",
      (Node.blank "right" "NAVIGATE_URL").withInput "URL" "typed"]
  edges :=
    [(Edge.between "open" "page").withHandles "Web page" "Web page",
      (Edge.between "page" "text").withHandles "Html" "Html",
      (Edge.between "left" "right").withHandles "Web page" "Web page",
      (Edge.between "right" "left").withHandles "Web page" "Web page"]
  viewport := none

def brokenElements : List InvalidElement := [⟨"open", ["Website URL"]⟩, ⟨"text", ["Selector"]⟩]

def brokenFillings : List Filling := [⟨"text", "Selector", "h1"⟩, ⟨"open", "Website URL", "typed"⟩]

theorem repairs_broken : Repairs brokenElements brokenFillings where
  nonempty := by
    intro filling member
    rcases List.mem_pair.mp member with rfl | rfl <;> decide
  exact := by
    intro node input
    simp only [brokenFillings, brokenElements, List.mem_cons, List.not_mem_nil, or_false,
      exists_eq_or_imp, exists_eq_left]
    grind

/-- One pass over the reports leaves only the cycle. -/
theorem compile_of_repairs_broken :
    (brokenFlow.nodes.map Node.id).Nodup ∧
      brokenFlow.compile Catalog.builtin.lookup = .error (.invalidInputs brokenElements) ∧
      Repairs brokenElements brokenFillings ∧
      ∃ repaired, brokenFlow.fill brokenFillings = .ok repaired ∧
        repaired.compile Catalog.builtin.lookup
          = .error (.unreachableNodes ["left", "right"]) := by
  have distinct : (brokenFlow.nodes.map Node.id).Nodup := by decide
  have reported : brokenFlow.compile Catalog.builtin.lookup
      = .error (.invalidInputs brokenElements) := by rfl
  have known : forall node, node ∈ brokenFlow.nodes ->
      node.id ∈ brokenElements.map InvalidElement.node ->
        ∃ definition, Catalog.builtin.lookup node.taskType = some definition := by
    intro node listed _
    apply Option.isSome_iff_exists.mp
    revert node
    decide
  rcases compile_of_repairs distinct reported known repairs_broken with
    ⟨entry, repaired, found, filled, answer⟩
  have start : entryPoint? Catalog.builtin.lookup brokenFlow.nodes
      = some (Node.blank "open" "LAUNCH_BROWSER") := by rfl
  cases start.symm.trans found
  have left : unreachableIds brokenFlow.nodes
      (agenda Catalog.builtin.lookup brokenFlow.nodes brokenFlow.edges
        (Node.blank "open" "LAUNCH_BROWSER")) = ["left", "right"] := by rfl
  rw [left] at answer
  rcases answer with ⟨none, _⟩ | ⟨_, stalled⟩
  · cases none
  · exact ⟨distinct, reported, repairs_broken, repaired, filled, stalled⟩

end FlowPlan
