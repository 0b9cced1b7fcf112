import FlowPlan.Proofs.Rounds
import Mathlib.Data.List.Perm.Basic
import Mathlib.Data.List.Nodup

namespace FlowPlan

/-!
How the order of the nodes shows in an answer.

The same nodes are compiled in two orders, side by side.  A round reads what
was planned before it as a set, and what it places it does not read: where the
two have planned the same identifiers, they place the same slots next, each in
the order of its own document.  So every round holds the same slots in both,
and the answers differ in the order of listing alone.

The choice of the entry point is the one step that reads the order itself.
The two documents are taken to agree on it, and no identifier is repeated in
them: of two nodes with one identifier only the first one counts.
-/

variable {registry : Registry} {nodes others : List Node} {edges : List Edge}

/-! ## One round in two orders -/

theorem firstSlots_of_nodup {slots : List Slot} (distinct : (slots.map Slot.id).Nodup) :
    firstSlots slots = slots := by
  induction slots with
  | nil => rfl
  | cons slot rest ih =>
      have parts := List.nodup_cons.mp distinct
      have apart : forall later, later ∈ rest -> (later.id != slot.id) = true := by
        intro later member
        have different : later.id ≠ slot.id :=
          fun same => parts.1 (same ▸ List.mem_map_of_mem member)
        simpa using different
      rw [firstSlots, ih parts.2, List.filter_eq_self.mpr apart]

/-- Where no identifier is repeated, a round places all that is ready. -/
theorem planRound_of_nodup (distinct : (nodes.map Node.id).Nodup) (graph : DependencyGraph)
    (planned : List NodeId) :
    planRound registry nodes edges graph planned
      = (unplanned planned nodes).filterMap (slotFor? registry edges graph planned) := by
  have kept : (((unplanned planned nodes).filterMap
      (slotFor? registry edges graph planned)).map Slot.node).Sublist nodes :=
    (filterMap_slotFor?_sublist planned _).trans List.filter_sublist
  apply firstSlots_of_nodup
  have ids := kept.map Node.id
  rw [List.map_map] at ids
  exact distinct.sublist ids

theorem unplanned_perm (perm : List.Perm nodes others) {planned later : List NodeId}
    (same : forall id, id ∈ planned ↔ id ∈ later) :
    List.Perm (unplanned planned nodes) (unplanned later others) := by
  have alike : forall id, planned.contains id = later.contains id := by
    intro id
    rw [Bool.eq_iff_iff, List.contains_iff_mem, List.contains_iff_mem]
    exact same id
  simp only [unplanned, alike]
  exact perm.filter _

/-- Whether a node is placed depends on sets alone: the nodes of the document
and what is planned. -/
theorem slotFor?_perm (registry : Registry) (edges : List Edge) (perm : List.Perm nodes others)
    {planned later : List NodeId} (same : forall id, id ∈ planned ↔ id ∈ later) :
    slotFor? registry edges (DependencyGraph.ofDocument nodes edges) planned
      = slotFor? registry edges (DependencyGraph.ofDocument others edges) later := by
  funext node
  apply Option.ext
  intro slot
  have missing : missingInputs registry edges planned node
      = missingInputs registry edges later node :=
    missingInputs_congr (fun _ edge _ => same edge.source)
  rw [slotFor?_eq_some_iff, slotFor?_eq_some_iff, missing]
  simp only [DependencyGraph.mem_incomers_ofDocument, (perm.map Node.id).mem_iff, same]

theorem planRound_perm (registry : Registry) (edges : List Edge)
    (distinct : (nodes.map Node.id).Nodup) (perm : List.Perm nodes others)
    {planned later : List NodeId} (same : List.Perm planned later) :
    List.Perm
      (planRound registry nodes edges (DependencyGraph.ofDocument nodes edges) planned)
      (planRound registry others edges (DependencyGraph.ofDocument others edges) later) := by
  have member : forall id, id ∈ planned ↔ id ∈ later := fun _ => same.mem_iff
  rw [planRound_of_nodup distinct, planRound_of_nodup ((perm.map Node.id).nodup_iff.mp distinct),
    slotFor?_perm registry edges perm member]
  exact (unplanned_perm perm member).filterMap _

/-! ## All rounds in two orders -/

theorem eq_nil_iff_of_perm {Value : Type} {values further : List Value}
    (perm : List.Perm values further) : values = [] ↔ further = [] := by
  rw [← List.length_eq_zero_iff, perm.length_eq, List.length_eq_zero_iff]

theorem nodeCount_perm (edges : List Edge) (distinct : (nodes.map Node.id).Nodup)
    (perm : List.Perm nodes others) :
    (DependencyGraph.ofDocument nodes edges).nodeCount
      = (DependencyGraph.ofDocument others edges).nodeCount := by
  have ids := perm.map Node.id
  rw [DependencyGraph.nodeCount_ofDocument, DependencyGraph.nodeCount_ofDocument,
    eraseDups_of_nodup distinct, eraseDups_of_nodup (ids.nodup_iff.mp distinct), ids.length_eq]

/-- From the same planned identifiers on, each round places the same slots. -/
theorem planRounds_perm (registry : Registry) (edges : List Edge)
    (distinct : (nodes.map Node.id).Nodup) (perm : List.Perm nodes others) (bound : Nat)
    {planned later : List NodeId} (same : List.Perm planned later) :
    List.Forall₂ List.Perm
      (planRounds registry nodes edges (DependencyGraph.ofDocument nodes edges) bound planned)
      (planRounds registry others edges (DependencyGraph.ofDocument others edges) bound later) := by
  induction bound generalizing planned later with
  | zero => exact .nil
  | succ bound ih =>
      have round := planRound_perm registry edges distinct perm same
      -- The rounds end together: as many nodes are left, and as many are ready.
      rw [planRounds_succ, planRounds_succ, nodeCount_perm edges distinct perm, same.length_eq]
      simp only [eq_nil_iff_of_perm round]
      split
      · exact .nil
      · exact .cons round (ih (same.append (round.map Slot.id)))

theorem agenda_perm (registry : Registry) (edges : List Edge) (entry : Node)
    (distinct : (nodes.map Node.id).Nodup) (perm : List.Perm nodes others) :
    List.Forall₂ List.Perm (agenda registry nodes edges entry)
      (agenda registry others edges entry) := by
  rw [agenda_eq, agenda_eq, perm.length_eq]
  exact .cons (List.Perm.refl _)
    (planRounds_perm registry edges distinct perm _ (List.Perm.refl _))

/-! ## What is reported and left out -/

section Reports

variable {rounds further : List (List Slot)} (same : List.Forall₂ List.Perm rounds further)

include same

theorem plannedIds_perm : List.Perm (plannedIds rounds) (plannedIds further) :=
  (List.Perm.flatten_congr same).map Slot.id

theorem invalidElements_perm : List.Perm (invalidElements rounds) (invalidElements further) :=
  ((List.Perm.flatten_congr same).filter _).map _

theorem unreachableIds_perm (perm : List.Perm nodes others) (distinct : (nodes.map Node.id).Nodup) :
    List.Perm (unreachableIds nodes rounds) (unreachableIds others further) := by
  have left := unplanned_perm perm (fun _ => (plannedIds_perm same).mem_iff)
  have ids := left.map Node.id
  have nodup : ((unplanned (plannedIds rounds) nodes).map Node.id).Nodup :=
    distinct.sublist (List.filter_sublist.map Node.id)
  rw [unreachableIds, unreachableIds, eraseDups_of_nodup nodup,
    eraseDups_of_nodup (ids.nodup_iff.mp nodup)]
  exact ids

end Reports

/-! ## Plans of the same rounds -/

/-- Phases of one number that hold the same nodes, in whatever order. -/
structure Phase.Alike (phase other : Phase) : Prop where
  number : phase.number = other.number
  nodes : List.Perm phase.nodes other.nodes

theorem alike_ofGroups {groups further : List (List Node)}
    (same : List.Forall₂ List.Perm groups further) :
    List.Forall₂ Phase.Alike (Plan.ofGroups groups).phases (Plan.ofGroups further).phases := by
  have numbered : forall first,
      List.Forall₂ Phase.Alike ((groups.zipIdx first).map (fun group => ⟨group.2, group.1⟩))
        ((further.zipIdx first).map (fun group => ⟨group.2, group.1⟩)) := by
    induction same with
    | nil => exact fun _ => .nil
    | cons group _ ih => exact fun first => .cons ⟨rfl, group⟩ (ih (first + 1))
  exact numbered 1

theorem alike_ofRounds {rounds further : List (List Slot)}
    (same : List.Forall₂ List.Perm rounds further) :
    List.Forall₂ Phase.Alike (Plan.ofRounds rounds).phases (Plan.ofRounds further).phases := by
  apply alike_ofGroups
  rw [List.forall₂_map_left_iff, List.forall₂_map_right_iff]
  exact same.imp (fun _ _ round => round.map Slot.node)

/-- A look-up does not see the order of the nodes in a phase. -/
theorem phaseOf?_of_alike {plan other : Plan}
    (alike : List.Forall₂ Phase.Alike plan.phases other.phases) (id : NodeId) :
    plan.phaseOf? id = other.phaseOf? id := by
  rcases plan with ⟨phases⟩
  rcases other with ⟨further⟩
  simp only [Plan.phaseOf?] at alike ⊢
  induction alike with
  | nil => rfl
  | cons phase _ ih =>
      rw [List.find?_cons, List.find?_cons, phase.nodes.any_eq]
      split
      · exact congrArg some phase.number
      · exact ih

/-! ## The same answer in two orders -/

/-- Answers of one kind that list the same things, in whatever order. -/
inductive SameUpToOrder : Except PlanError Plan -> Except PlanError Plan -> Prop
  | noEntryPoint : SameUpToOrder (.error .noEntryPoint) (.error .noEntryPoint)
  | invalidInputs {elements further : List InvalidElement} (perm : List.Perm elements further) :
      SameUpToOrder (.error (.invalidInputs elements)) (.error (.invalidInputs further))
  | unreachableNodes {ids further : List NodeId} (perm : List.Perm ids further) :
      SameUpToOrder (.error (.unreachableNodes ids)) (.error (.unreachableNodes further))
  | planned {plan other : Plan} (located : forall id, plan.phaseOf? id = other.phaseOf? id)
      (phases : List.Forall₂ Phase.Alike plan.phases other.phases) :
      SameUpToOrder (.ok plan) (.ok other)

/-- Where the entry point stays the same, another order of the nodes changes
nothing but the order in which an answer lists them. -/
theorem compile_perm (edges : List Edge) (distinct : (nodes.map Node.id).Nodup)
    (perm : List.Perm nodes others)
    (begins : entryPoint? registry nodes = entryPoint? registry others) :
    SameUpToOrder (compile registry nodes edges) (compile registry others edges) := by
  cases found : entryPoint? registry nodes with
  | none =>
      rw [compile_of_no_entry found, compile_of_no_entry (begins.symm.trans found)]
      exact .noEntryPoint
  | some entry =>
      have foundToo := begins.symm.trans found
      have rounds := agenda_perm registry edges entry distinct perm
      have reported := invalidElements_perm rounds
      have left := unreachableIds_perm rounds perm distinct
      by_cases faultless : invalidElements (agenda registry nodes edges entry) = []
      · have faultlessToo := (eq_nil_iff_of_perm reported).mp faultless
        by_cases complete : unreachableIds nodes (agenda registry nodes edges entry) = []
        · have completeToo := (eq_nil_iff_of_perm left).mp complete
          rw [(compile_eq_ok_iff found _).mpr ⟨faultless, complete, rfl⟩,
            (compile_eq_ok_iff foundToo _).mpr ⟨faultlessToo, completeToo, rfl⟩]
          have alike := alike_ofRounds rounds
          exact .planned (phaseOf?_of_alike alike) alike
        · have incomplete := mt (eq_nil_iff_of_perm left).mpr complete
          rw [(compile_eq_unreachableNodes_iff found _).mpr ⟨faultless, complete, rfl⟩,
            (compile_eq_unreachableNodes_iff foundToo _).mpr ⟨faultlessToo, incomplete, rfl⟩]
          exact .unreachableNodes left
      · have faulty := mt (eq_nil_iff_of_perm reported).mpr faultless
        rw [(compile_eq_invalidInputs_iff found _).mpr ⟨faultless, rfl⟩,
          (compile_eq_invalidInputs_iff foundToo _).mpr ⟨faulty, rfl⟩]
        exact .invalidInputs reported

/-- Two nodes here may begin a workflow, and the first of them does. -/
def spreadNodes : List Node :=
  [Node.blank "start" "START", Node.blank "left" "STEP", Node.blank "right" "STEP",
    Node.blank "meet" "STEP", Node.blank "spare" "START"]

/-- The same nodes in another order, with the same one to begin with. -/
def spreadBackwards : List Node :=
  [Node.blank "meet" "STEP", Node.blank "right" "STEP", Node.blank "start" "START",
    Node.blank "spare" "START", Node.blank "left" "STEP"]

def spreadEdges : List Edge :=
  [joined "start" "left" "in", joined "start" "right" "in", joined "left" "meet" "in",
    joined "right" "meet" "extra"]

/-- The second phase is listed in document order, and that is all there is to
tell the two plans apart. -/
theorem compile_perm_spread :
    entryPoint? sampleTasks spreadNodes = entryPoint? sampleTasks spreadBackwards ∧
    compile sampleTasks spreadNodes spreadEdges
      = .ok ⟨[⟨1, [Node.blank "start" "START"]⟩,
          ⟨2, [Node.blank "left" "STEP", Node.blank "right" "STEP", Node.blank "spare" "START"]⟩,
          ⟨3, [Node.blank "meet" "STEP"]⟩]⟩ ∧
    compile sampleTasks spreadBackwards spreadEdges
      = .ok ⟨[⟨1, [Node.blank "start" "START"]⟩,
          ⟨2, [Node.blank "right" "STEP", Node.blank "spare" "START", Node.blank "left" "STEP"]⟩,
          ⟨3, [Node.blank "meet" "STEP"]⟩]⟩ ∧
    SameUpToOrder (compile sampleTasks spreadNodes spreadEdges)
      (compile sampleTasks spreadBackwards spreadEdges) := by
  have distinct : (spreadNodes.map Node.id).Nodup := by decide
  have perm : List.Perm spreadNodes spreadBackwards := by decide
  have begins : entryPoint? sampleTasks spreadNodes = entryPoint? sampleTasks spreadBackwards := by
    rfl
  exact ⟨begins, by rfl, by rfl, compile_perm spreadEdges distinct perm begins⟩

end FlowPlan
