import FlowPlan.Proofs.Phases
import FlowPlan.Task.Catalog

namespace FlowPlan

/-!
When a plan runs a node.

After the first phase a node runs exactly one phase after the last of its
suppliers: late enough that each of them has run, and no later, since a round
earlier one of them was still unplanned.  The first phase has nothing before
it, and yet its node may be its own supplier.
-/

variable {registry : Registry} {nodes : List Node} {edges : List Edge}

/-- The number of the latest phase that holds one of these identifiers, and
of the entry point's where there is none. -/
def Plan.latestPhase (plan : Plan) (ids : List NodeId) : Nat :=
  (ids.filterMap plan.phaseOf?).foldr max 1

theorem foldr_max_le {numbers : List Nat} {last : Nat} (positive : 1 ≤ last)
    (bounded : forall number, number ∈ numbers -> number ≤ last) : numbers.foldr max 1 ≤ last := by
  induction numbers with
  | nil => exact positive
  | cons number rest ih =>
      have tail := ih (fun other later => bounded other (List.mem_cons_of_mem _ later))
      exact Nat.max_le.mpr ⟨bounded number List.mem_cons_self, tail⟩

theorem le_foldr_max {numbers : List Nat} {number : Nat} (member : number ∈ numbers) :
    number ≤ numbers.foldr max 1 := by
  induction numbers with
  | nil => cases member
  | cons head rest ih =>
      rw [List.foldr_cons]
      rcases List.mem_cons.mp member with rfl | later
      · exact Nat.le_max_left _ _
      · exact Nat.le_trans (ih later) (Nat.le_max_right _ _)

theorem one_le_foldr_max (numbers : List Nat) : 1 ≤ numbers.foldr max 1 := by
  induction numbers with
  | nil => exact Nat.le_refl 1
  | cons head rest ih => exact Nat.le_trans ih (Nat.le_max_right _ _)

theorem Plan.latestPhase_eq {plan : Plan} {ids : List NodeId} {last : Nat} (positive : 1 ≤ last)
    (bounded : forall id, id ∈ ids -> ∃ number, plan.phaseOf? id = some number ∧ number ≤ last)
    (met : last = 1 ∨ ∃ id, id ∈ ids ∧ plan.phaseOf? id = some last) :
    plan.latestPhase ids = last := by
  apply Nat.le_antisymm
  · apply foldr_max_le positive
    intro number member
    rcases List.mem_filterMap.mp member with ⟨id, listed, found⟩
    rcases bounded id listed with ⟨bound, foundToo, small⟩
    cases found.symm.trans foundToo
    exact small
  · rcases met with rfl | ⟨id, listed, found⟩
    · exact one_le_foldr_max _
    · exact le_foldr_max (List.mem_filterMap.mpr ⟨id, listed, found⟩)

/-! ## A round and the one before it -/

section Agenda

variable {entry : Node}

/-- In a document where nothing is missing a later round places only nodes
that are complete. -/
theorem complete_of_agenda_split
    (faultless : invalidElements (agenda registry nodes edges entry) = [])
    {before after : List (List Slot)} {round : List Slot}
    (split : agenda registry nodes edges entry = before ++ round :: after) (started : before ≠ [])
    {slot : Slot} (member : slot ∈ round) :
    Complete registry edges {id | id ∈ plannedIds before} slot.node := by
  have among : slot ∈ (agenda registry nodes edges entry).flatten :=
    List.mem_flatten.mpr ⟨round, by rw [split]; simp, member⟩
  have nothing := missing_eq_nil_of_faultless faultless among
  have placed := placed_of_mem_planRound (round_of_agenda_split split started ▸ member)
  exact (missingInputs_eq_nil_iff _ _ _ _).mp (placed.missing.symm.trans nothing)

/-- A node that is complete after some rounds has its identifier planned one
round later, unless the rounds are over. -/
theorem planned_of_complete {before after : List (List Slot)} {round : List Slot}
    (split : agenda registry nodes edges entry = before ++ round :: after) (started : before ≠ [])
    {node : Node} (listed : node ∈ nodes)
    (complete : Complete registry edges {id | id ∈ plannedIds before} node) :
    node.id ∈ plannedIds (before ++ [round]) := by
  rw [plannedIds_append]
  by_cases old : node.id ∈ plannedIds before
  · exact List.mem_append_left _ old
  · have nothing := (missingInputs_eq_nil_iff registry edges _ node).mpr complete
    have filled : ∃ slot, slot ∈ planRound registry nodes edges
        (DependencyGraph.ofDocument nodes edges) (plannedIds before) ∧ slot.id = node.id :=
      exists_mem_planRound listed old (Or.inl nothing)
    rcases filled with ⟨slot, placed, same⟩
    apply List.mem_append_right
    rw [plannedIds_cons, plannedIds_nil, List.append_nil, round_of_agenda_split split started,
      ← same]
    exact List.mem_map_of_mem placed

/-- A node that a round places was not complete a round earlier. -/
theorem not_complete_of_agenda_split {before after : List (List Slot)} {previous round : List Slot}
    (split : agenda registry nodes edges entry = (before ++ [previous]) ++ round :: after)
    (started : before ≠ []) {slot : Slot} (member : slot ∈ round) :
    ¬ Complete registry edges {id | id ∈ plannedIds before} slot.node := by
  intro complete
  have begun : before ++ [previous] ≠ [] := List.append_ne_nil_of_left_ne_nil started _
  have placed := placed_of_mem_planRound (round_of_agenda_split split begun ▸ member)
  rw [List.append_assoc, List.singleton_append] at split
  exact placed.fresh (planned_of_complete split started placed.member complete)

/-- A round comes right after the last supplier of any node that it places. -/
theorem latestPhase_suppliers
    (faultless : invalidElements (agenda registry nodes edges entry) = [])
    {before after : List (List Slot)} {round : List Slot}
    (split : agenda registry nodes edges entry = before ++ round :: after) (started : before ≠ [])
    {slot : Slot} (among : slot ∈ round) :
    (Plan.ofRounds (agenda registry nodes edges entry)).latestPhase
      (suppliers registry edges slot.node) = before.length := by
  have complete := complete_of_agenda_split faultless split started among
  have fillable := (complete_iff_suppliers.mp complete).1
  have supplied := (complete_iff_suppliers.mp complete).2
  apply Plan.latestPhase_eq (List.length_pos_of_ne_nil started)
  · intro id supplies
    rw [split]
    exact phaseOf?_of_mem_plannedIds (supplied id supplies)
  · rcases (List.eq_nil_or_concat' before).resolve_left started with ⟨earlier, previous, rfl⟩
    by_cases first : earlier = []
    · left
      rw [first]
      rfl
    · right
      -- The supplier that was still unplanned a round earlier is the latest one.
      rcases exists_supplier_not_mem fillable
        (not_complete_of_agenda_split split first among) with ⟨id, supplies, fresh⟩
      have planned : id ∈ plannedIds (earlier ++ [previous]) := supplied id supplies
      rw [plannedIds_append, plannedIds_cons, plannedIds_nil, List.append_nil] at planned
      have here := (List.mem_append.mp planned).resolve_left fresh
      refine ⟨id, supplies, ?_⟩
      rw [split, List.append_assoc, List.singleton_append, List.length_append]
      exact phaseOf?_of_split fresh here

end Agenda

/-- After the first phase a node runs one phase after the last of its
suppliers, each of which has a phase; what is not supplied is a literal or
may stay empty. -/
theorem phase_number_of_compile_eq_ok {plan : Plan}
    (planned : compile registry nodes edges = .ok plan) :
    forall phase, phase ∈ plan.phases -> 2 ≤ phase.number ->
      forall node, node ∈ phase.nodes ->
        (∃ definition, registry node.taskType = some definition ∧
          forall input, input ∈ definition.inputs -> node.literal? input.name = none ->
            (forall edge, feeder? edges node.id input.name = some edge ->
              ∃ earlier, earlier ∈ plan.phases ∧ earlier.number < phase.number ∧
                edge.source ∈ earlier.nodes.map Node.id) ∧
            (feeder? edges node.id input.name = none -> input.required = false)) ∧
        (forall source, source ∈ suppliers registry edges node ->
          ∃ number, plan.phaseOf? source = some number ∧ number < phase.number) ∧
        phase.number = 1 + plan.latestPhase (suppliers registry edges node) := by
  rcases planned_of_compile_eq_ok planned with ⟨entry, _, faultless, _, rfl⟩
  intro phase member late node among
  rcases split_of_mem_phases member with ⟨before, round, after, split, rfl⟩
  rcases List.mem_map.mp among with ⟨slot, placed, rfl⟩
  have started : before ≠ [] := by
    rintro rfl
    exact Nat.not_succ_le_self 1 late
  have complete := complete_of_agenda_split faultless split started placed
  have located : forall id, id ∈ plannedIds before ->
      ∃ number, (Plan.ofRounds (agenda registry nodes edges entry)).phaseOf? id = some number ∧
        number < before.length + 1 := by
    intro id earlier
    rw [split]
    rcases phaseOf?_of_mem_plannedIds earlier with ⟨number, found, bound⟩
    exact ⟨number, found, Nat.lt_succ_of_le bound⟩
  have supplied := (complete_iff_suppliers.mp complete).2
  refine ⟨?_, fun source supplies => located source (supplied source supplies), ?_⟩
  · rcases complete with ⟨definition, known, provided⟩
    refine ⟨definition, known, fun input declared untyped => ?_⟩
    refine ⟨?_, (provided input declared).not_required untyped⟩
    intro edge first
    have earlier := (provided input declared).source_mem untyped first
    rcases located edge.source earlier with ⟨number, found, below⟩
    rcases phase_of_phaseOf?_eq_some found with ⟨phase, listed, rfl, held⟩
    exact ⟨phase, listed, below, held⟩
  · rw [latestPhase_suppliers faultless split started placed, Nat.add_comm]

/-- A node whose only edge in use feeds an optional input. -/
def toppedNode : Node := (Node.blank "top" "STEP").withInput "in" "typed"

def layeredNodes : List Node :=
  [toppedNode, Node.blank "middle" "STEP", Node.blank "base" "STEP",
    Node.blank "start" "START"]

/-- The second edge into the middle node comes from the top, and is not used. -/
def layeredEdges : List Edge :=
  [joined "start" "base" "in", joined "base" "middle" "in", joined "top" "middle" "in",
    joined "middle" "top" "extra"]

def layeredPlan : Plan :=
  ⟨[⟨1, [Node.blank "start" "START"]⟩, ⟨2, [Node.blank "base" "STEP"]⟩,
    ⟨3, [Node.blank "middle" "STEP"]⟩, ⟨4, [toppedNode]⟩]⟩

theorem phase_number_layered :
    compile sampleTasks layeredNodes layeredEdges = .ok layeredPlan ∧
      suppliers sampleTasks layeredEdges toppedNode = ["middle"] ∧
      4 = 1 + layeredPlan.latestPhase (suppliers sampleTasks layeredEdges toppedNode) := by
  have planned : compile sampleTasks layeredNodes layeredEdges = .ok layeredPlan := by rfl
  have last : ⟨4, [toppedNode]⟩ ∈ layeredPlan.phases := by decide
  rcases phase_number_of_compile_eq_ok planned ⟨4, [toppedNode]⟩ last (by decide)
    toppedNode List.mem_cons_self with ⟨_, _, number⟩
  exact ⟨planned, by decide, number⟩

/-! ## The first phase -/

/-- The entry point of a document where nothing is missing needs no other node. -/
theorem entry_complete_of_faultless {entry : Node}
    (faultless : invalidElements (agenda registry nodes edges entry) = []) :
    Complete registry edges {entry.id} entry := by
  have nothing := missing_eq_nil_of_faultless faultless entrySlot_mem_agenda
  have complete := (missingInputs_eq_nil_iff registry edges [entry.id] entry).mp nothing
  exact complete.mono (fun _ only => List.mem_singleton.mp only)

/-- Each input of a node in a plan is provided for by what the plan holds. -/
theorem complete_of_plan {plan : Plan} (planned : compile registry nodes edges = .ok plan)
    {phase : Phase} (member : phase ∈ plan.phases) {node : Node} (among : node ∈ phase.nodes) :
    Complete registry edges {id | ∃ number, plan.phaseOf? id = some number} node := by
  rcases planned_of_compile_eq_ok planned with ⟨entry, _, faultless, _, rfl⟩
  have held : forall {before rest : List (List Slot)} {id : NodeId},
      agenda registry nodes edges entry = before ++ rest -> id ∈ plannedIds before ->
        ∃ number, (Plan.ofRounds (agenda registry nodes edges entry)).phaseOf? id
          = some number := by
    intro before rest id split here
    rw [split]
    rcases phaseOf?_of_mem_plannedIds here with ⟨number, found, _⟩
    exact ⟨number, found⟩
  rcases split_of_mem_phases member with ⟨before, round, after, split, rfl⟩
  rcases List.mem_map.mp among with ⟨slot, placed, rfl⟩
  by_cases first : before = []
  · -- The entry point was checked against itself, and the first phase holds it.
    rcases agenda_split split with ⟨_, alone⟩ | ⟨started, _⟩
    · rw [alone, List.mem_singleton] at placed
      rw [placed]
      refine (entry_complete_of_faultless faultless).mono ?_
      rintro id rfl
      have itself : entry.id ∈ plannedIds [[entrySlot registry edges entry]] := by
        simp [entrySlot, Slot.id]
      exact held (agenda_eq entry) itself
    · rw [first] at started
      cases started
  · exact (complete_of_agenda_split faultless split first placed).mono
      (fun _ earlier => held split earlier)

/-- Each input of the node in the first phase has a literal, or is optional
and unfed, or is fed by that node itself: the entry point counts as planned
while it is checked. -/
theorem first_phase_of_compile_eq_ok {plan : Plan}
    (planned : compile registry nodes edges = .ok plan) :
    ∃ entry, entryPoint? registry nodes = some entry ∧ plan.phases.head? = some ⟨1, [entry]⟩ ∧
      ∃ definition, registry entry.taskType = some definition ∧
        forall input, input ∈ definition.inputs ->
          (∃ value, entry.literal? input.name = some value) ∨
          (input.required = false ∧ feeder? edges entry.id input.name = none) ∨
          ∃ edge, feeder? edges entry.id input.name = some edge ∧ edge.source = entry.id := by
  rcases planned_of_compile_eq_ok planned with ⟨entry, found, faultless, _, rfl⟩
  rcases entry_complete_of_faultless faultless with ⟨definition, known, provided⟩
  refine ⟨entry, found, head_of_agenda entry, definition, known, ?_⟩
  intro input declared
  cases provided input declared with
  | literal value typed => exact Or.inl ⟨value, typed⟩
  | edge edge first itself => exact Or.inr (Or.inr ⟨edge, first, itself⟩)
  | optional unfed optional => exact Or.inr (Or.inl ⟨optional, unfed⟩)

def openedNode : Node := (Node.blank "open" "LAUNCH_BROWSER").withInput "Website URL" "typed"

def openedNodes : List Node := [openedNode, Node.blank "page" "NAVIGATE_URL"]

/-- Edges into the entry point, from itself and from a later node. -/
def openedEdges : List Edge :=
  [joined "open" "open" "Website URL", joined "page" "open" "Website URL",
    joined "open" "page" "Web page", joined "open" "page" "URL"]

/-- The literal of the entry point keeps it first. -/
theorem first_phase_typed :
    compile Catalog.builtin.lookup openedNodes openedEdges
        = .ok ⟨[⟨1, [openedNode]⟩, ⟨2, [Node.blank "page" "NAVIGATE_URL"]⟩]⟩ ∧
      ((∃ value, openedNode.literal? "Website URL" = some value) ∨
        (TaskKind.startAddress.required = false ∧
          feeder? openedEdges openedNode.id "Website URL" = none) ∨
        ∃ edge, feeder? openedEdges openedNode.id "Website URL" = some edge ∧
          edge.source = openedNode.id) := by
  have planned : compile Catalog.builtin.lookup openedNodes openedEdges
      = .ok ⟨[⟨1, [openedNode]⟩, ⟨2, [Node.blank "page" "NAVIGATE_URL"]⟩]⟩ := by rfl
  have found : entryPoint? Catalog.builtin.lookup openedNodes = some openedNode := by rfl
  have known : Catalog.builtin.lookup openedNode.taskType
      = some TaskKind.launchBrowser.definition := by rfl
  rcases first_phase_of_compile_eq_ok planned with ⟨entry, foundToo, _, definition, knownToo, filled⟩
  cases found.symm.trans foundToo
  cases known.symm.trans knownToo
  exact ⟨planned, filled TaskKind.startAddress List.mem_cons_self⟩

def selfFedEdges : List Edge := [(Edge.between "open" "open").withHandles "Web page" "Website URL"]

/-- With its required input unset, an entry point that feeds itself runs first. -/
theorem self_fed_entry_planned :
    compile Catalog.builtin.lookup [Node.blank "open" "LAUNCH_BROWSER"] selfFedEdges
        = .ok ⟨[⟨1, [Node.blank "open" "LAUNCH_BROWSER"]⟩]⟩ ∧
      (∃ definition, Catalog.builtin.lookup "LAUNCH_BROWSER" = some definition ∧
        TaskKind.startAddress ∈ definition.inputs) ∧
      TaskKind.startAddress.required = true ∧
      (Node.blank "open" "LAUNCH_BROWSER").literal? TaskKind.startAddress.name = none := by
  have planned : compile Catalog.builtin.lookup [Node.blank "open" "LAUNCH_BROWSER"] selfFedEdges
      = .ok ⟨[⟨1, [Node.blank "open" "LAUNCH_BROWSER"]⟩]⟩ := by rfl
  have known : Catalog.builtin.lookup "LAUNCH_BROWSER"
      = some TaskKind.launchBrowser.definition := by rfl
  exact ⟨planned, ⟨_, known, List.mem_cons_self⟩, rfl, rfl⟩

end FlowPlan
