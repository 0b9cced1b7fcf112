import FlowPlan.Proofs.Guard
import FlowPlan.Proofs.Repair
import FlowPlan.Proofs.Supply

namespace FlowPlan

/-!
Typing literals into a document that has a plan.

A literal takes away suppliers and brings none.  So nothing that could be
filled and put in order ceases to be, and no node comes later than it did: its
phase is the one after its latest supplier, and by induction on the phases of
the old plan each supplier that is left comes no later than before.
-/

variable {registry : Registry} {nodes : List Node} {edges : List Edge} {entry : Node}

/-! ## The phase of a node and those of its suppliers -/

theorem Plan.le_latestPhase {plan : Plan} {ids : List NodeId} {id : NodeId} {number : Nat}
    (among : id ∈ ids) (numbered : plan.phaseOf? id = some number) :
    number ≤ plan.latestPhase ids :=
  le_foldr_max (List.mem_filterMap.mpr ⟨id, among, numbered⟩)

/-- Fewer identifiers, none of them later, have no later phase. -/
theorem Plan.latestPhase_le {plan later : Plan} {ids fewer : List NodeId} (subset : fewer ⊆ ids)
    (advances : forall id, id ∈ fewer -> ∃ number earlier, plan.phaseOf? id = some number ∧
      later.phaseOf? id = some earlier ∧ earlier ≤ number) :
    later.latestPhase fewer ≤ plan.latestPhase ids := by
  apply foldr_max_le (one_le_foldr_max _)
  intro last member
  rcases List.mem_filterMap.mp member with ⟨id, among, numbered⟩
  rcases advances id among with ⟨number, earlier, numberedBefore, numberedToo, le⟩
  cases numbered.symm.trans numberedToo
  exact Nat.le_trans le (Plan.le_latestPhase (subset among) numberedBefore)

/-- In a plan every node other than the entry point has the phase after the
latest of its suppliers, each of which has a phase. -/
theorem phaseOf?_eq_latestPhase (distinct : (nodes.map Node.id).Nodup)
    (found : entryPoint? registry nodes = some entry) {plan : Plan}
    (planned : compile registry nodes edges = .ok plan) {node : Node} (listed : node ∈ nodes)
    (other : node ≠ entry) :
    (forall source, source ∈ suppliers registry edges node ->
        ∃ number, plan.phaseOf? source = some number) ∧
      plan.phaseOf? node.id = some (plan.latestPhase (suppliers registry edges node) + 1) := by
  rcases (compile_eq_ok_iff found plan).mp planned with ⟨faultless, complete, rfl⟩
  have reached := unreachableIds_eq_nil_iff.mp complete node listed
  rcases exists_slot_of_planned distinct (entry_mem found) listed other reached with
    ⟨before, round, after, slot, split, started, fresh, among, rfl⟩
  have ready := complete_of_agenda_split faultless split started among
  constructor
  · intro source supplies
    have earlier := (complete_iff_suppliers.mp ready).2 source supplies
    rcases phaseOf?_of_mem_plannedIds earlier with ⟨number, numbered, _⟩
    exact ⟨number, by rw [split, numbered]⟩
  · rw [latestPhase_suppliers faultless split started among, split]
    exact phaseOf?_of_split fresh (List.mem_map_of_mem among)

/-- The entry point of a plan is alone in its first phase. -/
theorem phaseOf?_entry {plan : Plan} (found : entryPoint? registry nodes = some entry)
    (planned : compile registry nodes edges = .ok plan) : plan.phaseOf? entry.id = some 1 := by
  rcases (compile_eq_ok_iff found plan).mp planned with ⟨_, _, rfl⟩
  rw [agenda_eq, ← List.nil_append (_ :: _)]
  exact phaseOf?_of_split List.not_mem_nil (List.mem_singleton.mpr rfl)

theorem entryPoint?_of_compile_eq_ok {plan : Plan}
    (found : entryPoint? registry nodes = some entry)
    (planned : compile registry nodes edges = .ok plan) : plan.entryPoint? = some entry := by
  rcases (compile_eq_ok_iff found plan).mp planned with ⟨_, _, rfl⟩
  rw [Plan.entryPoint?, head_of_agenda]
  rfl

/-- A plan schedules the identifiers of its document and no others. -/
theorem mem_scheduledIds_iff {plan : Plan} (planned : compile registry nodes edges = .ok plan)
    (id : NodeId) :
    id ∈ (plan.phases.flatMap Phase.nodes).map Node.id ↔ id ∈ nodes.map Node.id := by
  rcases planned_of_compile_eq_ok planned with ⟨entry, found, _, complete, rfl⟩
  rw [scheduledIds_ofRounds]
  constructor
  · intro scheduled
    exact (listed_agenda registry edges (entry_mem found)).known scheduled
  · intro known
    rcases List.mem_map.mp known with ⟨node, listed, rfl⟩
    exact unreachableIds_eq_nil_iff.mp complete node listed

theorem mem_ids_of_phaseOf?_eq_some {plan : Plan}
    (planned : compile registry nodes edges = .ok plan) {id : NodeId} {number : Nat}
    (numbered : plan.phaseOf? id = some number) : id ∈ nodes.map Node.id := by
  rcases phase_of_phaseOf?_eq_some numbered with ⟨phase, member, _, held⟩
  exact (mem_scheduledIds_iff planned id).mp (mem_scheduledIds_of_mem member held)

/-! ## More literals in a plannable document -/

section MoreTyped

variable {change : Node -> Node} (more : forall node, MoreTyped node (change node))

/-- Typing takes suppliers away and brings none. -/
theorem suppliers_subset_of_moreTyped {node other : Node} (more : MoreTyped node other) :
    suppliers registry edges other ⊆ suppliers registry edges node := by
  intro source supplies
  rcases mem_suppliers.mp supplies with
    ⟨definition, known, input, declared, untyped, edge, first, rfl⟩
  rw [more.taskType] at known
  rw [more.id] at first
  have untypedBefore : node.literal? input.name = none := by
    rw [← Option.not_isSome_iff_eq_none] at untyped ⊢
    exact fun typed => untyped (more.literal input.name typed)
  exact mem_suppliers.mpr ⟨definition, known, input, declared, untypedBefore, edge, first, rfl⟩

include more

theorem awaits_of_moreTyped {source target : NodeId}
    (awaits : Awaits registry (nodes.map change) edges (change entry) source target) :
    Awaits registry nodes edges entry source target := by
  rcases awaits with ⟨_, listed, other, rfl, supplies⟩
  rcases List.mem_map.mp listed with ⟨node, member, rfl⟩
  exact ⟨node, member, fun same => other (congrArg change same), (more node).id.symm,
    suppliers_subset_of_moreTyped (more node) supplies⟩

theorem Plannable.moreTyped (plannable : Plannable registry nodes edges entry) :
    Plannable registry (nodes.map change) edges (change entry) where
  start := by
    rw [(more entry).id]
    exact plannable.start.moreTyped (more entry)
  others := by
    intro _ listed other
    rcases List.mem_map.mp listed with ⟨node, member, rfl⟩
    rw [ids_map_of_moreTyped more]
    exact (plannable.others node member (fun same => other (congrArg change same))).moreTyped
      (more node)
  ordered := by
    intro id cycle
    have fewer : Awaits registry (nodes.map change) edges (change entry)
        ≤ Awaits registry nodes edges entry := fun _ _ => awaits_of_moreTyped more
    exact plannable.ordered id (Relation.TransGen.mono fewer id id cycle)

/-- Where both documents have a plan, the one with more literals has no
identifier in a later phase. -/
theorem phase_le_of_moreTyped (distinct : (nodes.map Node.id).Nodup)
    (found : entryPoint? registry nodes = some entry) {plan later : Plan}
    (planned : compile registry nodes edges = .ok plan)
    (plannedLater : compile registry (nodes.map change) edges = .ok later) {id : NodeId}
    {number : Nat} (numbered : plan.phaseOf? id = some number) :
    ∃ earlier, later.phaseOf? id = some earlier ∧ earlier ≤ number := by
  have distinctLater : ((nodes.map change).map Node.id).Nodup := by
    rwa [ids_map_of_moreTyped more]
  have foundLater : entryPoint? registry (nodes.map change) = some (change entry) := by
    rw [entryPoint?_map (fun node => (more node).taskType), found, Option.map_some]
  -- A supplier stands in an earlier phase of the old plan than the node it supplies.
  induction number using Nat.strong_induction_on generalizing id with
  | _ number ih =>
      rcases List.mem_map.mp (mem_ids_of_phaseOf?_eq_some planned numbered) with
        ⟨node, listed, rfl⟩
      rw [← (more node).id]
      by_cases same : change node = change entry
      · rw [same]
        refine ⟨1, phaseOf?_entry foundLater plannedLater, ?_⟩
        have first : node.id = entry.id := by rw [← (more node).id, same, (more entry).id]
        rw [first, phaseOf?_entry found planned] at numbered
        exact Nat.le_of_eq (Option.some.inj numbered)
      · have other : node ≠ entry := fun equal => same (congrArg change equal)
        have before := phaseOf?_eq_latestPhase distinct found planned listed other
        have after := phaseOf?_eq_latestPhase distinctLater foundLater plannedLater
          (List.mem_map_of_mem listed) same
        have fewer : suppliers registry edges (change node) ⊆ suppliers registry edges node :=
          suppliers_subset_of_moreTyped (more node)
        cases numbered.symm.trans before.2
        refine ⟨_, after.2, Nat.succ_le_succ (Plan.latestPhase_le fewer ?_)⟩
        intro source supplies
        rcases before.1 source (fewer supplies) with ⟨first, numberedFirst⟩
        have less := Nat.lt_succ_of_le (Plan.le_latestPhase (fewer supplies) numberedFirst)
        rcases ih first less numberedFirst with ⟨earlier, numberedEarlier, le⟩
        exact ⟨first, earlier, numberedFirst, numberedEarlier, le⟩

end MoreTyped

/-- A value typed into a document with a plan leaves it one.  It begins with
the same node and schedules the same identifiers, none of them later. -/
theorem plan_of_setInput {flow changed : Flow} {target : NodeId} {name value : String} {plan : Plan}
    (distinct : (flow.nodes.map Node.id).Nodup) (nonempty : value ≠ "")
    (planned : flow.compile registry = .ok plan)
    (typed : flow.setInput target name value = .ok changed) :
    ∃ later, changed.compile registry = .ok later ∧
      (∃ entry, entryPoint? registry flow.nodes = some entry ∧ plan.entryPoint? = some entry ∧
        entryPoint? registry changed.nodes = some (typeInto target name value entry) ∧
        later.entryPoint? = some (typeInto target name value entry)) ∧
      (forall id, id ∈ (later.phases.flatMap Phase.nodes).map Node.id ↔
        id ∈ (plan.phases.flatMap Phase.nodes).map Node.id) ∧
      forall id number, plan.phaseOf? id = some number ->
        ∃ earlier, later.phaseOf? id = some earlier ∧ earlier ≤ number := by
  have more := moreTyped_typeInto nonempty target name
  have known : target ∈ flow.nodes.map Node.id := by
    unfold Flow.setInput at typed
    split at typed
    · cases typed
    · rename_i node denoted
      exact List.mem_map.mpr ⟨node, nodeNamed?_some denoted⟩
  rw [Flow.setInput_eq_ok distinct known] at typed
  cases typed
  rcases planned_of_compile_eq_ok planned with ⟨entry, found, _⟩
  have foundLater : entryPoint? registry (flow.nodes.map (typeInto target name value))
      = some (typeInto target name value entry) := by
    rw [entryPoint?_map (fun node => (more node).taskType), found, Option.map_some]
  have sameIds := ids_map_of_moreTyped more flow.nodes
  have plannable := (exists_plan_iff_plannable distinct found).mp ⟨plan, planned⟩
  rcases (exists_plan_iff_plannable (sameIds ▸ distinct) foundLater).mpr
    (plannable.moreTyped more) with ⟨later, plannedLater⟩
  refine ⟨later, plannedLater, ⟨entry, found, ?_, foundLater, ?_⟩, ?_, ?_⟩
  · exact entryPoint?_of_compile_eq_ok found planned
  · exact entryPoint?_of_compile_eq_ok foundLater plannedLater
  · intro id
    rw [mem_scheduledIds_iff plannedLater, mem_scheduledIds_iff planned, sameIds]
  · intro id number numbered
    exact phase_le_of_moreTyped more distinct found planned plannedLater numbered

def layeredFlow : Flow := ⟨layeredNodes, layeredEdges, none⟩

/-- The node in the middle has a literal where the base supplied it. -/
def shortcutFlow : Flow where
  nodes :=
    [toppedNode, (Node.blank "middle" "STEP").withInput "in" "typed", Node.blank "base" "STEP",
      Node.blank "start" "START"]
  edges := layeredEdges
  viewport := none

/-- The node that is typed into comes earlier, and with it the node it supplies. -/
theorem plan_of_setInput_layered :
    (layeredFlow.nodes.map Node.id).Nodup ∧ "typed" ≠ "" ∧
      layeredFlow.compile sampleTasks = .ok layeredPlan ∧
      layeredFlow.setInput "middle" "in" "typed" = .ok shortcutFlow ∧
      layeredPlan.phaseOf? "top" = some 4 ∧
      ∃ later, shortcutFlow.compile sampleTasks = .ok later ∧ later.phaseOf? "middle" = some 2 ∧
        later.phaseOf? "base" = some 2 ∧
        ∃ earlier, later.phaseOf? "top" = some earlier ∧ earlier ≤ 4 := by
  have distinct : (layeredFlow.nodes.map Node.id).Nodup := by decide
  have planned : layeredFlow.compile sampleTasks = .ok layeredPlan := by rfl
  have typed : layeredFlow.setInput "middle" "in" "typed" = .ok shortcutFlow := by rfl
  have before : layeredPlan.phaseOf? "top" = some 4 := by rfl
  rcases plan_of_setInput distinct (by decide) planned typed with
    ⟨later, plannedLater, _, _, advances⟩
  have after : shortcutFlow.compile sampleTasks = .ok ⟨[⟨1, [Node.blank "start" "START"]⟩,
      ⟨2, [(Node.blank "middle" "STEP").withInput "in" "typed", Node.blank "base" "STEP"]⟩,
      ⟨3, [toppedNode]⟩]⟩ := by rfl
  refine ⟨distinct, by decide, planned, typed, before, later, plannedLater, ?_, ?_,
    advances "top" 4 before⟩
  · cases after.symm.trans plannedLater
    rfl
  · cases after.symm.trans plannedLater
    rfl

end FlowPlan
