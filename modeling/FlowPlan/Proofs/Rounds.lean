import FlowPlan.Plan.Compile
import FlowPlan.Proofs.Links
import FlowPlan.Proofs.Provision
import Mathlib.Data.List.Perm.Subperm

namespace FlowPlan

/-!
The rounds of a document.

A round places nodes against what was planned before it, and `Placed` says
all there is to know about a slot of it.  The rounds of a document follow one
another without a gap, and after the last of them nothing can be placed: the
bound on their number is never what ends them.
-/

variable {registry : Registry} {nodes : List Node} {edges : List Edge} {graph : DependencyGraph}

/-! ## The slots of one round -/

theorem mem_unplanned {planned : List NodeId} {node : Node} :
    node ∈ unplanned planned nodes ↔ node ∈ nodes ∧ node.id ∉ planned := by
  simp [unplanned]

theorem firstSlots_sublist (slots : List Slot) : (firstSlots slots).Sublist slots := by
  induction slots with
  | nil => exact List.Sublist.refl _
  | cons slot rest ih => exact (List.filter_sublist.trans ih).cons_cons slot

theorem nodup_firstSlots (slots : List Slot) : ((firstSlots slots).map Slot.id).Nodup := by
  induction slots with
  | nil => exact List.nodup_nil
  | cons slot rest ih =>
      refine List.nodup_cons.mpr ⟨?_, ih.sublist (List.filter_sublist.map Slot.id)⟩
      intro repeated
      rcases List.mem_map.mp repeated with ⟨later, kept, same⟩
      have different := (List.mem_filter.mp kept).2
      rw [same] at different
      simp at different

/-- Of the slots of an identifier one is kept. -/
theorem exists_mem_firstSlots {slots : List Slot} {slot : Slot} (member : slot ∈ slots) :
    ∃ first, first ∈ firstSlots slots ∧ first.id = slot.id := by
  induction slots with
  | nil => cases member
  | cons head rest ih =>
      by_cases same : head.id = slot.id
      · exact ⟨head, List.mem_cons_self, same⟩
      · have later : slot ∈ rest := by
          rcases List.mem_cons.mp member with equal | later
          · exact absurd (congrArg Slot.id equal).symm same
          · exact later
        rcases ih later with ⟨first, kept, firstId⟩
        refine ⟨first, List.mem_cons_of_mem _ (List.mem_filter.mpr ⟨kept, ?_⟩), firstId⟩
        simpa [firstId] using Ne.symm same

/-- What a round knows of a slot that it places. -/
structure Placed (registry : Registry) (nodes : List Node) (edges : List Edge)
    (graph : DependencyGraph) (planned : List NodeId) (slot : Slot) : Prop where
  member : slot.node ∈ nodes
  fresh : slot.id ∉ planned
  missing : slot.missing = missingInputs registry edges planned slot.node
  settled : slot.missing = [] ∨ forall id, id ∈ graph.incomers slot.id -> id ∈ planned

theorem slotFor?_eq_some_iff {planned : List NodeId} {node : Node} {slot : Slot} :
    slotFor? registry edges graph planned node = some slot ↔
      slot = ⟨node, missingInputs registry edges planned node⟩ ∧
        (missingInputs registry edges planned node = [] ∨
          forall id, id ∈ graph.incomers node.id -> id ∈ planned) := by
  unfold slotFor?
  simp only [Bool.or_eq_true, List.isEmpty_iff, List.all_eq_true, List.contains_iff_mem,
    Option.ite_none_right_eq_some, Option.some.injEq]
  exact ⟨fun placed => ⟨placed.2.symm, placed.1⟩, fun placed => ⟨placed.2, placed.1.symm⟩⟩

theorem placed_of_mem_planRound {planned : List NodeId} {slot : Slot}
    (member : slot ∈ planRound registry nodes edges graph planned) :
    Placed registry nodes edges graph planned slot := by
  have among := (firstSlots_sublist _).subset member
  rcases List.mem_filterMap.mp among with ⟨node, listed, found⟩
  have parts := mem_unplanned.mp listed
  rcases slotFor?_eq_some_iff.mp found with ⟨rfl, ready⟩
  exact ⟨parts.1, parts.2, rfl, ready⟩

/-- A round places every unplanned identifier that one of its nodes makes ready. -/
theorem exists_mem_planRound {planned : List NodeId} {node : Node} (member : node ∈ nodes)
    (fresh : node.id ∉ planned)
    (ready : missingInputs registry edges planned node = [] ∨
      forall id, id ∈ graph.incomers node.id -> id ∈ planned) :
    ∃ slot, slot ∈ planRound registry nodes edges graph planned ∧ slot.id = node.id := by
  have found := slotFor?_eq_some_iff.mpr ⟨rfl, ready⟩
  exact exists_mem_firstSlots
    (List.mem_filterMap.mpr ⟨node, mem_unplanned.mpr ⟨member, fresh⟩, found⟩)

theorem nodup_planRound (planned : List NodeId) :
    ((planRound registry nodes edges graph planned).map Slot.id).Nodup :=
  nodup_firstSlots _

theorem filterMap_slotFor?_sublist (planned : List NodeId) (candidates : List Node) :
    ((candidates.filterMap (slotFor? registry edges graph planned)).map Slot.node).Sublist
      candidates := by
  induction candidates with
  | nil => exact List.Sublist.refl _
  | cons node rest ih =>
      cases found : slotFor? registry edges graph planned node with
      | none =>
          rw [List.filterMap_cons_none found]
          exact ih.cons node
      | some slot =>
          rcases slotFor?_eq_some_iff.mp found with ⟨rfl, _⟩
          rw [List.filterMap_cons_some found]
          exact ih.cons_cons node

/-- A round keeps to document order. -/
theorem planRound_sublist (planned : List NodeId) :
    ((planRound registry nodes edges graph planned).map Slot.node).Sublist nodes :=
  ((firstSlots_sublist _).map Slot.node).trans
    ((filterMap_slotFor?_sublist planned (unplanned planned nodes)).trans List.filter_sublist)

/-! ## Rounds that follow one another -/

@[simp] theorem plannedIds_nil : plannedIds [] = [] := rfl

@[simp] theorem plannedIds_cons (round : List Slot) (rounds : List (List Slot)) :
    plannedIds (round :: rounds) = round.map Slot.id ++ plannedIds rounds := by
  simp [plannedIds]

@[simp] theorem plannedIds_append (before after : List (List Slot)) :
    plannedIds (before ++ after) = plannedIds before ++ plannedIds after := by
  simp [plannedIds]

theorem mem_plannedIds {rounds : List (List Slot)} {id : NodeId} :
    id ∈ plannedIds rounds ↔ ∃ slot, slot ∈ rounds.flatten ∧ slot.id = id :=
  List.mem_map

/-- Either the rounds are over, or there is a next one. -/
theorem planRounds_succ (bound : Nat) (planned : List NodeId) :
    planRounds registry nodes edges graph (bound + 1) planned =
      if graph.nodeCount ≤ planned.length ∨ planRound registry nodes edges graph planned = [] then
        []
      else
        planRound registry nodes edges graph planned ::
          planRounds registry nodes edges graph bound
            (planned ++ (planRound registry nodes edges graph planned).map Slot.id) := by
  rw [planRounds]
  by_cases full : graph.nodeCount ≤ planned.length
  · simp [full]
  · cases placed : planRound registry nodes edges graph planned with
    | nil => simp
    | cons slot slots => simp [full]

/-- Each round is the round of all that was planned before it, and places something. -/
theorem planRounds_split {bound : Nat} {planned : List NodeId} {before after : List (List Slot)}
    {round : List Slot}
    (split : planRounds registry nodes edges graph bound planned = before ++ round :: after) :
    round = planRound registry nodes edges graph (planned ++ plannedIds before) ∧ round ≠ [] := by
  induction bound generalizing planned before with
  | zero => simp [planRounds] at split
  | succ bound ih =>
      rw [planRounds_succ] at split
      split at split
      · simp at split
      · rename_i going
        cases before with
        | nil =>
            have first := (List.cons.inj split).1
            rw [plannedIds_nil, List.append_nil, ← first]
            exact ⟨rfl, fun nothing => going (Or.inr nothing)⟩
        | cons first before =>
            have parts := List.cons.inj split
            have rest := ih parts.2
            rw [plannedIds_cons, ← List.append_assoc, ← parts.1]
            exact rest

/-- What one round preserves, all rounds preserve. -/
theorem planRounds_preserve {motive : List NodeId -> Prop}
    (step : forall planned, motive planned ->
      motive (planned ++ (planRound registry nodes edges graph planned).map Slot.id))
    (bound : Nat) {planned : List NodeId} (start : motive planned) :
    motive (planned ++ plannedIds (planRounds registry nodes edges graph bound planned)) := by
  induction bound generalizing planned with
  | zero => simpa [planRounds] using start
  | succ bound ih =>
      rw [planRounds_succ]
      split
      · simpa using start
      · rw [plannedIds_cons, ← List.append_assoc]
        exact ih (step planned start)

/-- Planned identifiers belong to the document, and none is planned twice. -/
structure Listed (nodes : List Node) (planned : List NodeId) : Prop where
  nodup : planned.Nodup
  known : planned ⊆ nodes.map Node.id

theorem listed_step {planned : List NodeId} (listed : Listed nodes planned) :
    Listed nodes (planned ++ (planRound registry nodes edges graph planned).map Slot.id) := by
  have placed : forall id, id ∈ (planRound registry nodes edges graph planned).map Slot.id ->
      id ∉ planned ∧ id ∈ nodes.map Node.id := by
    intro id member
    rcases List.mem_map.mp member with ⟨slot, among, rfl⟩
    have known := placed_of_mem_planRound among
    exact ⟨known.fresh, List.mem_map_of_mem known.member⟩
  constructor
  · refine List.nodup_append.mpr ⟨listed.nodup, nodup_planRound planned, ?_⟩
    intro old before new later same
    exact (placed new later).1 (same ▸ before)
  · intro id member
    rcases List.mem_append.mp member with before | later
    · exact listed.known before
    · exact (placed id later).2

/-- Once as many identifiers are planned as the document has, a round places nothing. -/
theorem planRound_eq_nil_of_full {planned : List NodeId} (listed : Listed nodes planned)
    (full : (DependencyGraph.ofDocument nodes edges).nodeCount ≤ planned.length) :
    planRound registry nodes edges graph planned = [] := by
  have within : planned ⊆ (DependencyGraph.ofDocument nodes edges).ids :=
    fun id member => DependencyGraph.mem_ids_ofDocument.mpr (listed.known member)
  have same := (listed.nodup.subperm within).perm_of_length_le full
  apply List.eq_nil_iff_forall_not_mem.mpr
  intro slot member
  have placed := placed_of_mem_planRound member
  apply placed.fresh
  exact same.mem_iff.mpr
    (DependencyGraph.mem_ids_ofDocument.mpr (List.mem_map_of_mem placed.member))

/-- With a bound that leaves a round for every unplanned identifier, the
rounds go on until nothing more can be placed. -/
theorem planRound_after_planRounds {bound : Nat} {planned : List NodeId}
    (listed : Listed nodes planned)
    (enough : (DependencyGraph.ofDocument nodes edges).nodeCount ≤ planned.length + bound) :
    planRound registry nodes edges (DependencyGraph.ofDocument nodes edges)
      (planned ++ plannedIds (planRounds registry nodes edges
        (DependencyGraph.ofDocument nodes edges) bound planned)) = [] := by
  induction bound generalizing planned with
  | zero => simpa [planRounds] using planRound_eq_nil_of_full listed enough
  | succ bound ih =>
      rw [planRounds_succ]
      split
      · rename_i stopped
        rw [plannedIds_nil, List.append_nil]
        rcases stopped with full | nothing
        · exact planRound_eq_nil_of_full listed full
        · exact nothing
      · rename_i going
        rw [plannedIds_cons, ← List.append_assoc]
        apply ih (listed_step listed)
        have progress := List.length_pos_of_ne_nil (fun nothing => going (Or.inr nothing))
        rw [List.length_append, List.length_map]
        omega

/-- Where the rounds ended because nothing could be placed, a larger bound
does not prolong them. -/
theorem planRounds_of_le {bound larger : Nat} {planned : List NodeId} (le : bound ≤ larger)
    (ended : planRound registry nodes edges graph
      (planned ++ plannedIds (planRounds registry nodes edges graph bound planned)) = []) :
    planRounds registry nodes edges graph larger planned
      = planRounds registry nodes edges graph bound planned := by
  induction bound generalizing larger planned with
  | zero =>
      have nothing : planRound registry nodes edges graph planned = [] := by
        simpa [planRounds] using ended
      cases larger with
      | zero => rfl
      | succ larger => rw [planRounds_succ, if_pos (Or.inr nothing), planRounds]
  | succ bound ih =>
      cases larger with
      | zero => exact absurd le (Nat.not_succ_le_zero bound)
      | succ larger =>
          rw [planRounds_succ] at ended
          rw [planRounds_succ, planRounds_succ]
          split at ended
          · rename_i stopped
            rw [if_pos stopped, if_pos stopped]
          · rename_i going
            rw [if_neg going, if_neg going]
            rw [plannedIds_cons, ← List.append_assoc] at ended
            rw [ih (Nat.le_of_succ_le_succ le) ended]

/-! ## All rounds of a document -/

/-- What the round of the entry point places. -/
def entrySlot (registry : Registry) (edges : List Edge) (entry : Node) : Slot :=
  ⟨entry, missingInputs registry edges [entry.id] entry⟩

theorem agenda_eq (entry : Node) :
    agenda registry nodes edges entry =
      [entrySlot registry edges entry] ::
        planRounds registry nodes edges (DependencyGraph.ofDocument nodes edges)
          (nodes.length - 1) [entry.id] := rfl

section Congruence

variable {other : Registry} {others : List Edge} {further : DependencyGraph} {entry : Node}

/-- Rounds in which the same nodes are placed on the same grounds are the same
rounds, whatever tasks, edges and graph they are found with. -/
theorem planRounds_congr (count : further.nodeCount = graph.nodeCount)
    (slots : forall planned, entry.id ∈ planned -> forall node, node ∈ nodes ->
      node.id ∉ planned ->
      slotFor? other others further planned node = slotFor? registry edges graph planned node)
    (bound : Nat) {planned : List NodeId} (started : entry.id ∈ planned) :
    planRounds other nodes others further bound planned
      = planRounds registry nodes edges graph bound planned := by
  induction bound generalizing planned with
  | zero => rfl
  | succ bound ih =>
      have round : planRound other nodes others further planned
          = planRound registry nodes edges graph planned := by
        rw [planRound, planRound, List.filterMap_congr]
        intro node waiting
        have parts := mem_unplanned.mp waiting
        exact slots planned started node parts.1 parts.2
      rw [planRounds_succ, planRounds_succ, count, round, ih (List.mem_append_left _ started)]

theorem agenda_congr
    (start : missingInputs other others [entry.id] entry
      = missingInputs registry edges [entry.id] entry)
    (slots : forall planned, entry.id ∈ planned -> forall node, node ∈ nodes ->
      node.id ∉ planned ->
      slotFor? other others (DependencyGraph.ofDocument nodes others) planned node
        = slotFor? registry edges (DependencyGraph.ofDocument nodes edges) planned node) :
    agenda other nodes others entry = agenda registry nodes edges entry := by
  have count : (DependencyGraph.ofDocument nodes others).nodeCount
      = (DependencyGraph.ofDocument nodes edges).nodeCount := by
    rw [DependencyGraph.nodeCount_ofDocument, DependencyGraph.nodeCount_ofDocument]
  rw [agenda, agenda, start, planRounds_congr count slots _ (List.mem_singleton.mpr rfl)]

end Congruence

theorem plannedIds_agenda (entry : Node) :
    plannedIds (agenda registry nodes edges entry) =
      [entry.id] ++ plannedIds (planRounds registry nodes edges
        (DependencyGraph.ofDocument nodes edges) (nodes.length - 1) [entry.id]) := by
  rw [agenda_eq, plannedIds_cons]
  rfl

/-- The first round holds the entry point, every other one is the round of
what was planned before it. -/
theorem agenda_split {entry : Node} {before after : List (List Slot)} {round : List Slot}
    (split : agenda registry nodes edges entry = before ++ round :: after) :
    (before = [] ∧ round = [entrySlot registry edges entry]) ∨
      (entry.id ∈ plannedIds before ∧ round ≠ [] ∧
        round = planRound registry nodes edges (DependencyGraph.ofDocument nodes edges)
          (plannedIds before)) := by
  rw [agenda_eq] at split
  cases before with
  | nil => exact Or.inl ⟨rfl, (List.cons.inj split).1.symm⟩
  | cons first before =>
      have parts := List.cons.inj split
      have rest := planRounds_split parts.2
      have start : plannedIds (first :: before) = [entry.id] ++ plannedIds before := by
        rw [plannedIds_cons, ← parts.1]
        rfl
      rw [start]
      exact Or.inr ⟨List.mem_append_left _ (List.mem_singleton.mpr rfl), rest.2, rest.1⟩

theorem round_of_agenda_split {entry : Node} {before after : List (List Slot)}
    {round : List Slot} (split : agenda registry nodes edges entry = before ++ round :: after)
    (started : before ≠ []) :
    round = planRound registry nodes edges (DependencyGraph.ofDocument nodes edges)
      (plannedIds before) := by
  rcases agenda_split split with ⟨first, _⟩ | ⟨_, _, later⟩
  · exact absurd first started
  · exact later

theorem listed_entry {entry : Node} (member : entry ∈ nodes) : Listed nodes [entry.id] where
  nodup := by simp
  known := by
    intro id only
    exact List.mem_singleton.mp only ▸ List.mem_map_of_mem member

theorem listed_agenda (registry : Registry) (edges : List Edge) {entry : Node}
    (member : entry ∈ nodes) :
    Listed nodes (plannedIds (agenda registry nodes edges entry)) := by
  rw [plannedIds_agenda]
  exact planRounds_preserve (fun _ => listed_step) _ (listed_entry member)

theorem rounds_suffice {entry : Node} :
    (DependencyGraph.ofDocument nodes edges).nodeCount
      ≤ [entry.id].length + (nodes.length - 1) := by
  have count := DependencyGraph.nodeCount_le_length nodes edges
  have one : [entry.id].length = 1 := rfl
  omega

/-- The rounds of a document end because nothing more can be placed. -/
theorem planRound_after_agenda (registry : Registry) (edges : List Edge) {entry : Node}
    (member : entry ∈ nodes) :
    planRound registry nodes edges (DependencyGraph.ofDocument nodes edges)
      (plannedIds (agenda registry nodes edges entry)) = [] := by
  rw [plannedIds_agenda]
  exact planRound_after_planRounds (listed_entry member) rounds_suffice

/-- A slot is the entry point's, or it was placed by a later round. -/
theorem slot_of_agenda {entry : Node} {slot : Slot}
    (member : slot ∈ (agenda registry nodes edges entry).flatten) :
    slot = entrySlot registry edges entry ∨
      ∃ planned, planned ⊆ plannedIds (agenda registry nodes edges entry) ∧
        entry.id ∈ planned ∧
        Placed registry nodes edges (DependencyGraph.ofDocument nodes edges) planned slot := by
  rcases List.mem_flatten.mp member with ⟨round, listed, among⟩
  rcases List.append_of_mem listed with ⟨before, after, split⟩
  rcases agenda_split split with ⟨_, first⟩ | ⟨started, _, later⟩
  · rw [first] at among
    exact Or.inl (List.mem_singleton.mp among)
  · refine Or.inr ⟨plannedIds before, ?_, started, placed_of_mem_planRound (later ▸ among)⟩
    rw [split, plannedIds_append]
    exact List.subset_append_left _ _

theorem entrySlot_mem_agenda {entry : Node} :
    entrySlot registry edges entry ∈ (agenda registry nodes edges entry).flatten := by
  rw [agenda_eq]
  exact List.mem_append_left _ (List.mem_singleton.mpr rfl)

/-! ## What the rounds report and leave out -/

theorem mem_invalidElements {rounds : List (List Slot)} {element : InvalidElement} :
    element ∈ invalidElements rounds ↔
      ∃ slot, slot ∈ rounds.flatten ∧ slot.missing ≠ [] ∧ element = ⟨slot.id, slot.missing⟩ := by
  simp only [invalidElements, List.mem_map, List.mem_filter, Bool.not_eq_true',
    List.isEmpty_eq_false_iff]
  constructor
  · rintro ⟨slot, ⟨among, missing⟩, same⟩
    exact ⟨slot, among, missing, same.symm⟩
  · rintro ⟨slot, among, missing, same⟩
    exact ⟨slot, ⟨among, missing⟩, same.symm⟩

/-- What is reported was placed all the same. -/
theorem mem_plannedIds_of_mem_invalidElements {rounds : List (List Slot)} {element : InvalidElement}
    (reported : element ∈ invalidElements rounds) : element.node ∈ plannedIds rounds := by
  rcases mem_invalidElements.mp reported with ⟨slot, among, _, rfl⟩
  exact mem_plannedIds.mpr ⟨slot, among, rfl⟩

/-- Where nothing is reported, no slot misses an input. -/
theorem missing_eq_nil_of_faultless {rounds : List (List Slot)}
    (faultless : invalidElements rounds = []) {slot : Slot} (among : slot ∈ rounds.flatten) :
    slot.missing = [] := by
  apply Classical.byContradiction
  intro missing
  have reported := mem_invalidElements.mpr ⟨slot, among, missing, rfl⟩
  rw [faultless] at reported
  cases reported

/-- What is left out are the identifiers of the document less those planned. -/
theorem unreachableIds_eq (nodes : List Node) (rounds : List (List Slot)) :
    unreachableIds nodes rounds
      = (nodes.map Node.id).eraseDups.filter (fun id => !(plannedIds rounds).contains id) := by
  rw [← eraseDups_filter, List.filter_map]
  rfl

theorem mem_unreachableIds {rounds : List (List Slot)} {id : NodeId} :
    id ∈ unreachableIds nodes rounds ↔ id ∈ nodes.map Node.id ∧ id ∉ plannedIds rounds := by
  rw [unreachableIds_eq, List.mem_filter, List.mem_eraseDups, Bool.not_eq_true',
    ← Bool.not_eq_true, List.contains_iff_mem]

theorem unreachableIds_sublist (rounds : List (List Slot)) :
    (unreachableIds nodes rounds).Sublist (nodes.map Node.id) := by
  rw [unreachableIds_eq]
  exact List.filter_sublist.trans (eraseDups_sublist _)

/-- What is left out is listed by first occurrence in the document. -/
theorem pairwise_idxOf_unreachableIds (nodes : List Node) (rounds : List (List Slot)) :
    (unreachableIds nodes rounds).Pairwise (fun first second =>
      (nodes.map Node.id).idxOf first < (nodes.map Node.id).idxOf second) := by
  rw [unreachableIds_eq]
  exact (pairwise_idxOf_eraseDups (nodes.map Node.id)).sublist List.filter_sublist

theorem unreachableIds_eq_nil_iff {rounds : List (List Slot)} :
    unreachableIds nodes rounds = [] ↔
      forall node, node ∈ nodes -> node.id ∈ plannedIds rounds := by
  rw [List.eq_nil_iff_forall_not_mem]
  constructor
  · intro none node listed
    apply Classical.byContradiction
    intro fresh
    exact none node.id (mem_unreachableIds.mpr ⟨List.mem_map_of_mem listed, fresh⟩)
  · intro all id left
    rcases mem_unreachableIds.mp left with ⟨known, fresh⟩
    rcases List.mem_map.mp known with ⟨node, listed, rfl⟩
    exact fresh (all node listed)

/-! ## The answer to a document -/

theorem compile_of_no_entry (none : entryPoint? registry nodes = none) :
    compile registry nodes edges = .error .noEntryPoint := by
  simp [compile, none]

section Answer

variable {entry : Node} (found : entryPoint? registry nodes = some entry)

include found

theorem entry_mem : entry ∈ nodes := List.mem_of_find?_eq_some found

theorem compile_ne_noEntryPoint : compile registry nodes edges ≠ .error .noEntryPoint := by
  simp only [compile, found]
  split <;> simp

/-- Missing inputs are reported before anything else. -/
theorem compile_eq_invalidInputs_iff (elements : List InvalidElement) :
    compile registry nodes edges = .error (.invalidInputs elements) ↔
      elements ≠ [] ∧ elements = invalidElements (agenda registry nodes edges entry) := by
  simp only [compile, found]
  cases reported : invalidElements (agenda registry nodes edges entry) with
  | nil => cases unreachableIds nodes (agenda registry nodes edges entry) <;> simp
  | cons element rest =>
      constructor
      · rintro ⟨⟩
        exact ⟨List.cons_ne_nil _ _, rfl⟩
      · rintro ⟨_, rfl⟩
        rfl

theorem compile_eq_unreachableNodes_iff (ids : List NodeId) :
    compile registry nodes edges = .error (.unreachableNodes ids) ↔
      invalidElements (agenda registry nodes edges entry) = [] ∧ ids ≠ [] ∧
        ids = unreachableIds nodes (agenda registry nodes edges entry) := by
  simp only [compile, found]
  cases invalidElements (agenda registry nodes edges entry) with
  | nil =>
      cases unreachableIds nodes (agenda registry nodes edges entry) with
      | nil => simp
      | cons id rest =>
          constructor
          · rintro ⟨⟩
            exact ⟨rfl, List.cons_ne_nil _ _, rfl⟩
          · rintro ⟨_, _, rfl⟩
            rfl
  | cons element rest => simp

/-- There is a plan where nothing is missing and nothing left out. -/
theorem compile_eq_ok_iff (plan : Plan) :
    compile registry nodes edges = .ok plan ↔
      invalidElements (agenda registry nodes edges entry) = [] ∧
        unreachableIds nodes (agenda registry nodes edges entry) = [] ∧
        plan = Plan.ofRounds (agenda registry nodes edges entry) := by
  simp only [compile, found]
  cases invalidElements (agenda registry nodes edges entry) with
  | nil =>
      cases unreachableIds nodes (agenda registry nodes edges entry) with
      | nil => simp [eq_comm]
      | cons id rest => simp
  | cons element rest => simp

end Answer

/-- A document with a plan has an entry point, and the plan is its agenda. -/
theorem planned_of_compile_eq_ok {plan : Plan} (planned : compile registry nodes edges = .ok plan) :
    ∃ entry, entryPoint? registry nodes = some entry ∧
      invalidElements (agenda registry nodes edges entry) = [] ∧
      unreachableIds nodes (agenda registry nodes edges entry) = [] ∧
      plan = Plan.ofRounds (agenda registry nodes edges entry) := by
  cases found : entryPoint? registry nodes with
  | none =>
      rw [compile_of_no_entry found] at planned
      cases planned
  | some entry => exact ⟨entry, rfl, (compile_eq_ok_iff found plan).mp planned⟩

end FlowPlan
