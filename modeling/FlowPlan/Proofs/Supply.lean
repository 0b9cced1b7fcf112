import FlowPlan.Proofs.Earliest
import FlowPlan.Proofs.Unreached

namespace FlowPlan

/-!
Which documents have a plan.

A node awaits the suppliers of its inputs.  A document has a plan exactly when
its entry point is complete on its own, every other node would be complete with
the whole document planned, and no node awaits itself, be it through others.
Edges that supply nothing have no part in this.
-/

variable {registry : Registry} {nodes : List Node} {edges : List Edge} {entry : Node}

/-- The first identifier supplies a node of the second one that is not the
entry point. -/
def Awaits (registry : Registry) (nodes : List Node) (edges : List Edge) (entry : Node)
    (source target : NodeId) : Prop :=
  ∃ node, node ∈ nodes ∧ node ≠ entry ∧ node.id = target ∧ source ∈ suppliers registry edges node

structure Plannable (registry : Registry) (nodes : List Node) (edges : List Edge) (entry : Node) :
    Prop where
  start : Complete registry edges {entry.id} entry
  others : forall node, node ∈ nodes -> node ≠ entry ->
    Complete registry edges {id | id ∈ nodes.map Node.id} node
  ordered : forall id, ¬ Relation.TransGen (Awaits registry nodes edges entry) id id

/-- What is awaited in a plannable document belongs to it. -/
theorem Plannable.source_mem (plannable : Plannable registry nodes edges entry)
    {source target : NodeId} (awaits : Awaits registry nodes edges entry source target) :
    source ∈ nodes.map Node.id := by
  rcases awaits with ⟨node, listed, other, _, supplies⟩
  exact (complete_iff_suppliers.mp (plannable.others node listed other)).2 source supplies

/-! ## A plan follows the suppliers -/

/-- A planned node other than the entry point has its own slot in a later round. -/
theorem exists_slot_of_planned (distinct : (nodes.map Node.id).Nodup) (member : entry ∈ nodes)
    {node : Node} (listed : node ∈ nodes) (other : node ≠ entry)
    (planned : node.id ∈ plannedIds (agenda registry nodes edges entry)) :
    ∃ before round after slot, agenda registry nodes edges entry = before ++ round :: after ∧
      before ≠ [] ∧ node.id ∉ plannedIds before ∧ slot ∈ round ∧ slot.node = node := by
  rcases split_of_mem_plannedIds planned with ⟨before, round, after, split, fresh, here⟩
  rcases List.mem_map.mp here with ⟨slot, among, same⟩
  have slotListed : slot.node ∈ nodes :=
    (sublist_of_agenda_split member split).subset (List.mem_map_of_mem among)
  have identical : slot.node = node := node_eq_of_id_eq distinct slotListed listed same
  refine ⟨before, round, after, slot, split, ?_, fresh, among, identical⟩
  intro first
  rcases agenda_split split with ⟨_, alone⟩ | ⟨begun, _⟩
  · rw [alone, List.mem_singleton] at among
    exact other (identical.symm.trans (congrArg Slot.node among))
  · rw [first] at begun
    cases begun

/-- In a document where nothing is missing a node is complete by the round
that places it. -/
theorem exists_complete_before (distinct : (nodes.map Node.id).Nodup) (member : entry ∈ nodes)
    (faultless : invalidElements (agenda registry nodes edges entry) = []) {node : Node}
    (listed : node ∈ nodes) (other : node ≠ entry)
    (planned : node.id ∈ plannedIds (agenda registry nodes edges entry)) :
    ∃ before round after, agenda registry nodes edges entry = before ++ round :: after ∧
      node.id ∉ plannedIds before ∧ node.id ∈ round.map Slot.id ∧
      Complete registry edges {id | id ∈ plannedIds before} node := by
  rcases exists_slot_of_planned distinct member listed other planned with
    ⟨before, round, after, slot, split, started, fresh, among, rfl⟩
  exact ⟨before, round, after, split, fresh, List.mem_map_of_mem among,
    complete_of_agenda_split faultless split started among⟩

theorem phase_lt_of_awaits (distinct : (nodes.map Node.id).Nodup)
    (found : entryPoint? registry nodes = some entry) {plan : Plan}
    (planned : compile registry nodes edges = .ok plan) {source target : NodeId}
    (awaits : Awaits registry nodes edges entry source target) :
    ∃ first second, plan.phaseOf? source = some first ∧ plan.phaseOf? target = some second ∧
      first < second := by
  rcases (compile_eq_ok_iff found plan).mp planned with ⟨faultless, complete, rfl⟩
  rcases awaits with ⟨node, listed, other, rfl, supplies⟩
  have reached := unreachableIds_eq_nil_iff.mp complete node listed
  rcases exists_complete_before distinct (entry_mem found) faultless listed other reached with
    ⟨before, round, after, split, fresh, here, ready⟩
  have earlier := (complete_iff_suppliers.mp ready).2 source supplies
  rw [split]
  rcases phaseOf?_of_mem_plannedIds earlier with ⟨first, numbered, bound⟩
  exact ⟨first, before.length + 1, numbered, phaseOf?_of_split fresh here,
    Nat.lt_succ_of_le bound⟩

theorem phase_lt_of_transGen_awaits (distinct : (nodes.map Node.id).Nodup)
    (found : entryPoint? registry nodes = some entry) {plan : Plan}
    (planned : compile registry nodes edges = .ok plan) {source target : NodeId}
    (awaits : Relation.TransGen (Awaits registry nodes edges entry) source target) :
    ∃ first second, plan.phaseOf? source = some first ∧ plan.phaseOf? target = some second ∧
      first < second := by
  induction awaits with
  | single awaits => exact phase_lt_of_awaits distinct found planned awaits
  | tail _ awaits ih =>
      rcases ih with ⟨first, middle, numbered, between, less⟩
      rcases phase_lt_of_awaits distinct found planned awaits with
        ⟨same, second, betweenToo, numberedToo, lessToo⟩
      cases between.symm.trans betweenToo
      exact ⟨first, second, numbered, numberedToo, Nat.lt_trans less lessToo⟩

/-! ## Suppliers in order make a plan -/

/-- A node that is left out awaits another that is left out. -/
theorem Plannable.exists_awaits (plannable : Plannable registry nodes edges entry)
    (member : entry ∈ nodes) {id : NodeId}
    (left : id ∈ unreachableIds nodes (agenda registry nodes edges entry)) :
    ∃ source, source ∈ unreachableIds nodes (agenda registry nodes edges entry) ∧
      Awaits registry nodes edges entry source id := by
  rcases mem_unreachableIds.mp left with ⟨known, fresh⟩
  rcases List.mem_map.mp known with ⟨node, listed, rfl⟩
  have closed := closed_plannedIds registry edges member
  have other : node ≠ entry := by
    rintro rfl
    exact fresh closed.entry
  have fillable := complete_iff_suppliers.mp (plannable.others node listed other)
  have incomplete : ¬ Complete registry edges
      {id | id ∈ plannedIds (agenda registry nodes edges entry)} node :=
    fun complete => fresh (closed.admits node listed (Or.inl complete))
  rcases exists_supplier_not_mem fillable.1 incomplete with ⟨source, supplies, unplanned⟩
  exact ⟨source, mem_unreachableIds.mpr ⟨fillable.2 source supplies, unplanned⟩,
    node, listed, other, rfl, supplies⟩

theorem Plannable.unreachableIds_eq_nil (plannable : Plannable registry nodes edges entry)
    (member : entry ∈ nodes) :
    unreachableIds nodes (agenda registry nodes edges entry) = [] := by
  apply List.eq_nil_iff_forall_not_mem.mpr
  intro id left
  rcases exists_cycle_behind (fun _ left => plannable.exists_awaits member left) left with
    ⟨repeated, cycle, _⟩
  exact plannable.ordered repeated cycle

theorem Plannable.faultless (plannable : Plannable registry nodes edges entry)
    (distinct : (nodes.map Node.id).Nodup) (member : entry ∈ nodes) :
    invalidElements (agenda registry nodes edges entry) = [] := by
  apply (invalidElements_eq_nil_iff distinct member).mpr
  intro element fault
  cases fault with
  | entry missing =>
      apply missing
      apply (missingInputs_eq_nil_iff registry edges [entry.id] entry).mpr
      exact plannable.start.mono (fun _ itself => List.mem_singleton.mpr itself)
  | node node listed other _ missing =>
      exact missing ((missingInputs_eq_nil_iff registry edges _ node).mpr
        (plannable.others node listed other))

/-- A document has a plan exactly when its nodes can be filled and put in order. -/
theorem exists_plan_iff_plannable (distinct : (nodes.map Node.id).Nodup)
    (found : entryPoint? registry nodes = some entry) :
    (∃ plan, compile registry nodes edges = .ok plan) ↔
      Plannable registry nodes edges entry := by
  constructor
  · rintro ⟨plan, planned⟩
    rcases (compile_eq_ok_iff found plan).mp planned with ⟨faultless, complete, _⟩
    refine ⟨entry_complete_of_faultless faultless, ?_, ?_⟩
    · intro node listed other
      have reached := unreachableIds_eq_nil_iff.mp complete node listed
      rcases exists_complete_before distinct (entry_mem found) faultless listed other reached with
        ⟨before, round, after, split, _, _, ready⟩
      have known := (listed_agenda registry edges (entry_mem found)).known
      rw [split, plannedIds_append] at known
      exact ready.mono (fun _ earlier => known (List.mem_append_left _ earlier))
    · intro id cycle
      rcases phase_lt_of_transGen_awaits distinct found planned cycle with
        ⟨first, second, numbered, numberedToo, less⟩
      cases numbered.symm.trans numberedToo
      exact Nat.lt_irrefl first less
  · intro plannable
    exact ⟨_, (compile_eq_ok_iff found _).mpr
      ⟨plannable.faultless distinct (entry_mem found),
        plannable.unreachableIds_eq_nil (entry_mem found), rfl⟩⟩

end FlowPlan
