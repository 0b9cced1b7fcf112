import FlowPlan.Proofs.Rounds
import Mathlib.Data.Finset.Card

namespace FlowPlan

/-!
The phases of a plan.

A plan numbers the rounds it was made from, so that what is known of rounds
carries over to phases: a plan holds each identifier of its document once, in
document order within a phase, and a look-up finds the phase that holds it.
-/

variable {registry : Registry} {nodes : List Node} {edges : List Edge}

/-! ## Rounds as phases -/

theorem numbers_ofRounds (rounds : List (List Slot)) :
    (Plan.ofRounds rounds).phases.map Phase.number = List.range' 1 rounds.length := by
  have numbers : (Plan.ofRounds rounds).phases.map Phase.number
      = ((rounds.map (fun slots => slots.map Slot.node)).zipIdx 1).map Prod.snd := by
    simp only [Plan.ofRounds, Plan.ofGroups, List.map_map]
    rfl
  rw [numbers, List.zipIdx_map_snd, List.length_map]

theorem length_ofRounds (rounds : List (List Slot)) :
    (Plan.ofRounds rounds).length = rounds.length := by
  simp [Plan.length, Plan.ofRounds, Plan.ofGroups]

theorem phases_ofRounds_concat (rounds : List (List Slot)) (round : List Slot) :
    (Plan.ofRounds (rounds ++ [round])).phases =
      (Plan.ofRounds rounds).phases ++ [⟨rounds.length + 1, round.map Slot.node⟩] := by
  simp [Plan.ofRounds, Plan.ofGroups, List.zipIdx_append, Nat.add_comm]

/-- A round in its place is a phase in its place, numbered by what is before it. -/
theorem phases_ofRounds_split (before : List (List Slot)) (round : List Slot)
    (after : List (List Slot)) :
    ∃ later, (Plan.ofRounds (before ++ round :: after)).phases =
      (Plan.ofRounds before).phases ++ ⟨before.length + 1, round.map Slot.node⟩ :: later := by
  induction after using List.reverseRecOn with
  | nil => exact ⟨[], phases_ofRounds_concat before round⟩
  | append_singleton after last ih =>
      rcases ih with ⟨later, phases⟩
      have shape : before ++ round :: (after ++ [last]) = (before ++ round :: after) ++ [last] := by
        simp
      rw [shape, phases_ofRounds_concat, phases, List.append_assoc, List.cons_append]
      exact ⟨_, rfl⟩

theorem split_of_mem_phases {rounds : List (List Slot)} {phase : Phase}
    (member : phase ∈ (Plan.ofRounds rounds).phases) :
    ∃ before round after, rounds = before ++ round :: after ∧
      phase = ⟨before.length + 1, round.map Slot.node⟩ := by
  induction rounds using List.reverseRecOn with
  | nil => cases member
  | append_singleton rounds round ih =>
      rw [phases_ofRounds_concat] at member
      rcases List.mem_append.mp member with earlier | last
      · rcases ih earlier with ⟨before, found, after, split, same⟩
        exact ⟨before, found, after ++ [round], by simp [split], same⟩
      · exact ⟨rounds, round, [], rfl, List.mem_singleton.mp last⟩

theorem scheduledIds_ofRounds (rounds : List (List Slot)) :
    ((Plan.ofRounds rounds).phases.flatMap Phase.nodes).map Node.id = plannedIds rounds := by
  induction rounds using List.reverseRecOn with
  | nil => rfl
  | append_singleton rounds round ih =>
      rw [phases_ofRounds_concat, List.flatMap_append, List.map_append, ih, plannedIds_append]
      simp [Slot.id, Function.comp_def]

theorem mem_scheduledIds_of_mem {plan : Plan} {phase : Phase} (member : phase ∈ plan.phases)
    {id : NodeId} (held : id ∈ phase.nodes.map Node.id) :
    id ∈ (plan.phases.flatMap Phase.nodes).map Node.id := by
  rcases List.mem_map.mp held with ⟨node, among, same⟩
  exact List.mem_map.mpr ⟨node, List.mem_flatMap.mpr ⟨phase, member, among⟩, same⟩

theorem nodeCount_ofRounds (rounds : List (List Slot)) :
    (Plan.ofRounds rounds).nodeCount = (plannedIds rounds).length := by
  rw [← scheduledIds_ofRounds, List.length_map, Plan.nodeCount]

/-! ## Looking an identifier up -/

theorem any_id_iff (phase : Phase) (id : NodeId) :
    (phase.nodes.any (fun node => node.id == id)) = true ↔ id ∈ phase.nodes.map Node.id := by
  simp [List.any_eq_true, List.mem_map]

/-- What a look-up answers is the number of a phase that holds the identifier. -/
theorem phase_of_phaseOf?_eq_some {plan : Plan} {id : NodeId} {number : Nat}
    (found : plan.phaseOf? id = some number) :
    ∃ phase, phase ∈ plan.phases ∧ phase.number = number ∧ id ∈ phase.nodes.map Node.id := by
  rcases Option.map_eq_some_iff.mp found with ⟨phase, first, numbered⟩
  have holds : (phase.nodes.any (fun node => node.id == id)) = true := by
    simpa using List.find?_some first
  exact ⟨phase, List.mem_of_find?_eq_some first, numbered, (any_id_iff phase id).mp holds⟩

theorem phaseOf?_of_not_mem {rounds : List (List Slot)} {id : NodeId}
    (absent : id ∉ plannedIds rounds) : (Plan.ofRounds rounds).phaseOf? id = none := by
  rw [Plan.phaseOf?, Option.map_eq_none_iff, List.find?_eq_none]
  intro phase member holds
  apply absent
  rw [← scheduledIds_ofRounds]
  exact mem_scheduledIds_of_mem member ((any_id_iff phase id).mp holds)

/-- The look-up answers the first phase that holds the identifier. -/
theorem phaseOf?_of_split {before after : List (List Slot)} {round : List Slot} {id : NodeId}
    (fresh : id ∉ plannedIds before) (here : id ∈ round.map Slot.id) :
    (Plan.ofRounds (before ++ round :: after)).phaseOf? id = some (before.length + 1) := by
  rcases phases_ofRounds_split before round after with ⟨later, phases⟩
  have earlier : (Plan.ofRounds before).phases.find?
      (fun phase => phase.nodes.any (fun node => node.id == id)) = none :=
    Option.map_eq_none_iff.mp (phaseOf?_of_not_mem fresh)
  have held : id ∈ (round.map Slot.node).map Node.id := by
    rw [List.map_map]
    exact here
  have found := (any_id_iff ⟨before.length + 1, round.map Slot.node⟩ id).mpr held
  rw [Plan.phaseOf?, phases, List.find?_append, earlier, Option.none_or, List.find?_cons, found]
  rfl

theorem exists_phase_of_mem {rounds : List (List Slot)} {id : NodeId}
    (planned : id ∈ plannedIds rounds) :
    ∃ phase, phase ∈ (Plan.ofRounds rounds).phases ∧ id ∈ phase.nodes.map Node.id := by
  rw [← scheduledIds_ofRounds] at planned
  rcases List.mem_map.mp planned with ⟨node, among, rfl⟩
  rcases List.mem_flatMap.mp among with ⟨phase, member, held⟩
  exact ⟨phase, member, List.mem_map_of_mem held⟩

theorem split_of_mem_plannedIds {rounds : List (List Slot)} {id : NodeId}
    (planned : id ∈ plannedIds rounds) :
    ∃ before round after, rounds = before ++ round :: after ∧ id ∉ plannedIds before ∧
      id ∈ round.map Slot.id := by
  induction rounds with
  | nil => cases planned
  | cons first rest ih =>
      by_cases here : id ∈ first.map Slot.id
      · exact ⟨[], first, rest, rfl, List.not_mem_nil, here⟩
      · rw [plannedIds_cons] at planned
        rcases ih ((List.mem_append.mp planned).resolve_left here) with
          ⟨before, round, after, rfl, fresh, found⟩
        refine ⟨first :: before, round, after, rfl, ?_, found⟩
        rw [plannedIds_cons]
        exact List.not_mem_append here fresh

/-- What is planned in the first rounds has a phase among the first phases. -/
theorem phaseOf?_of_mem_plannedIds {before rest : List (List Slot)} {id : NodeId}
    (planned : id ∈ plannedIds before) :
    ∃ number, (Plan.ofRounds (before ++ rest)).phaseOf? id = some number ∧
      number ≤ before.length := by
  rcases split_of_mem_plannedIds planned with ⟨earlier, round, later, rfl, fresh, here⟩
  refine ⟨earlier.length + 1, ?_, by simp⟩
  rw [List.append_assoc, List.cons_append]
  exact phaseOf?_of_split fresh here

/-! ## A plan against its document -/

/-- The plan holds every identifier of the document once, in order. -/
structure Covers (registry : Registry) (nodes : List Node) (plan : Plan) : Prop where
  numbers : plan.phases.map Phase.number = List.range' 1 plan.length
  nonempty : forall phase, phase ∈ plan.phases -> phase.nodes ≠ []
  entry : ∃ entry, entryPoint? registry nodes = some entry ∧
    plan.phases.head? = some ⟨1, [entry]⟩
  members : forall phase, phase ∈ plan.phases -> forall node, node ∈ phase.nodes -> node ∈ nodes
  ordered : forall phase, phase ∈ plan.phases -> phase.nodes.Sublist nodes
  once : forall id, id ∈ nodes.map Node.id ->
    ((plan.phases.flatMap Phase.nodes).map Node.id).count id = 1
  nodeCount : plan.nodeCount = (nodes.map Node.id).toFinset.card
  located : forall id, id ∈ nodes.map Node.id ->
    ∃ phase, phase ∈ plan.phases ∧ id ∈ phase.nodes.map Node.id ∧
      plan.phaseOf? id = some phase.number ∧
      forall other, other ∈ plan.phases -> id ∈ other.nodes.map Node.id -> other = phase
  absent : forall id, id ∉ nodes.map Node.id -> plan.phaseOf? id = none

section Agenda

variable {entry : Node}

theorem nonempty_of_agenda_split {before after : List (List Slot)} {round : List Slot}
    (split : agenda registry nodes edges entry = before ++ round :: after) : round ≠ [] := by
  rcases agenda_split split with ⟨_, first⟩ | ⟨_, nonempty, _⟩
  · rw [first]
    exact List.cons_ne_nil _ _
  · exact nonempty

theorem sublist_of_agenda_split (member : entry ∈ nodes) {before after : List (List Slot)}
    {round : List Slot}
    (split : agenda registry nodes edges entry = before ++ round :: after) :
    (round.map Slot.node).Sublist nodes := by
  rcases agenda_split split with ⟨_, first⟩ | ⟨_, _, later⟩
  · rw [first]
    exact List.singleton_sublist.mpr member
  · rw [later]
    exact planRound_sublist _

theorem sublist_of_mem_phases (member : entry ∈ nodes) {phase : Phase}
    (among : phase ∈ (Plan.ofRounds (agenda registry nodes edges entry)).phases) :
    phase.nodes.Sublist nodes := by
  rcases split_of_mem_phases among with ⟨before, round, after, split, rfl⟩
  exact sublist_of_agenda_split member split

end Agenda

theorem not_mem_before_of_nodup {before after : List (List Slot)} {round : List Slot} {id : NodeId}
    (nodup : (plannedIds (before ++ round :: after)).Nodup) (here : id ∈ round.map Slot.id) :
    id ∉ plannedIds before := by
  rw [plannedIds_append, plannedIds_cons] at nodup
  intro earlier
  exact (List.nodup_append.mp nodup).2.2 id earlier id (List.mem_append_left _ here) rfl

/-- Where nothing is planned twice, a look-up answers the number of any phase
that holds the identifier. -/
theorem phaseOf?_of_mem {rounds : List (List Slot)} (nodup : (plannedIds rounds).Nodup)
    {phase : Phase} (member : phase ∈ (Plan.ofRounds rounds).phases) {id : NodeId}
    (held : id ∈ phase.nodes.map Node.id) :
    (Plan.ofRounds rounds).phaseOf? id = some phase.number := by
  rcases split_of_mem_phases member with ⟨before, round, after, rfl, rfl⟩
  rw [List.map_map] at held
  exact phaseOf?_of_split (not_mem_before_of_nodup nodup held) held

/-- Phases are told apart by their numbers. -/
theorem phase_eq_of_number_eq {rounds : List (List Slot)} {phase other : Phase}
    (member : phase ∈ (Plan.ofRounds rounds).phases)
    (otherMember : other ∈ (Plan.ofRounds rounds).phases) (same : phase.number = other.number) :
    phase = other := by
  rcases split_of_mem_phases member with ⟨before, round, after, split, rfl⟩
  rcases split_of_mem_phases otherMember with ⟨others, otherRound, rest, otherSplit, rfl⟩
  have lengths : before.length = others.length := Nat.succ.inj same
  have parts := List.append_inj (split.symm.trans otherSplit) lengths
  rw [lengths, (List.cons.inj parts.2).1]

theorem head_of_agenda (entry : Node) :
    (Plan.ofRounds (agenda registry nodes edges entry)).phases.head? = some ⟨1, [entry]⟩ := by
  rcases phases_ofRounds_split [] [entrySlot registry edges entry]
    (planRounds registry nodes edges (DependencyGraph.ofDocument nodes edges)
      (nodes.length - 1) [entry.id]) with ⟨later, phases⟩
  rw [agenda_eq]
  exact congrArg List.head? phases

/-- A plan neither loses nor repeats a node of its document. -/
theorem covers_of_compile_eq_ok {plan : Plan}
    (planned : compile registry nodes edges = .ok plan) : Covers registry nodes plan := by
  rcases planned_of_compile_eq_ok planned with ⟨entry, found, _, complete, rfl⟩
  have listed := listed_agenda registry edges (entry_mem found)
  have all : forall id, id ∈ nodes.map Node.id ->
      id ∈ plannedIds (agenda registry nodes edges entry) := by
    intro id known
    rcases List.mem_map.mp known with ⟨node, member, rfl⟩
    exact unreachableIds_eq_nil_iff.mp complete node member
  constructor
  case numbers => rw [numbers_ofRounds, length_ofRounds]
  case nonempty =>
    intro phase member
    rcases split_of_mem_phases member with ⟨before, round, after, split, rfl⟩
    exact fun none => nonempty_of_agenda_split split (List.map_eq_nil_iff.mp none)
  case entry => exact ⟨entry, found, head_of_agenda entry⟩
  case members =>
    intro phase member node among
    exact (sublist_of_mem_phases (entry_mem found) member).subset among
  case ordered => exact fun phase member => sublist_of_mem_phases (entry_mem found) member
  case once =>
    intro id known
    rw [scheduledIds_ofRounds]
    exact List.count_eq_one_of_mem listed.nodup (all id known)
  case nodeCount =>
    rw [nodeCount_ofRounds, ← List.toFinset_card_of_nodup listed.nodup]
    congr 1
    ext id
    rw [List.mem_toFinset, List.mem_toFinset]
    exact ⟨fun member => listed.known member, all id⟩
  case located =>
    intro id known
    rcases exists_phase_of_mem (all id known) with ⟨phase, member, held⟩
    refine ⟨phase, member, held, phaseOf?_of_mem listed.nodup member held, ?_⟩
    intro other otherMember otherHeld
    apply phase_eq_of_number_eq otherMember member
    exact Option.some.inj ((phaseOf?_of_mem listed.nodup otherMember otherHeld).symm.trans
      (phaseOf?_of_mem listed.nodup member held))
  case absent =>
    intro id unknown
    exact phaseOf?_of_not_mem (fun member => unknown (listed.known member))

def repeatedNodes : List Node :=
  [Node.blank "first" "START", Node.blank "again" "STEP", Node.blank "step" "STEP",
    Node.blank "again" "START"]

/-- The first node of the repeated identifier waits for a node of its round. -/
def repeatedEdges : List Edge :=
  [joined "first" "step" "in", joined "step" "again" "in"]

theorem covers_repeated :
    ∃ plan, compile sampleTasks repeatedNodes repeatedEdges = .ok plan ∧
      plan.phaseOf? "again" = some 2 ∧ Covers sampleTasks repeatedNodes plan := by
  have planned : compile sampleTasks repeatedNodes repeatedEdges
      = .ok ⟨[⟨1, [Node.blank "first" "START"]⟩,
          ⟨2, [Node.blank "step" "STEP", Node.blank "again" "START"]⟩]⟩ := by rfl
  exact ⟨_, planned, rfl, covers_of_compile_eq_ok planned⟩

end FlowPlan
