import FlowPlan.Proofs.Reach
import FlowPlan.Proofs.Walk
import FlowPlan.Task.Catalog
import Mathlib.Data.Fintype.Card
import Mathlib.Order.WellFoundedSet

namespace FlowPlan

/-!
The identifiers that no round places.

Each of them waits for another of them, and there are finitely many, so each
lies on a cycle of such identifiers or behind one.  An answer that names them
does so once each, in document order, and without a cycle there is no such
answer, since all of a document is planned.  An input that nothing fills is
reported unless its node is left out in this way, since a node is only
reported once it is placed.
-/

variable {registry : Registry} {nodes : List Node} {edges : List Edge} {entry : Node}

/-! ## Cycles among finitely many identifiers -/

/-- An edge goes from the one to the other, both of them among `ids`. -/
def LeadsWithin (edges : List Edge) (ids : List NodeId) (source target : NodeId) : Prop :=
  source ∈ ids ∧ target ∈ ids ∧ Leads edges source target

/-- The identifier is on a cycle of edges within `ids`, or such a cycle leads to it. -/
def BehindCycle (edges : List Edge) (ids : List NodeId) (id : NodeId) : Prop :=
  ∃ repeated, Relation.TransGen (LeadsWithin edges ids) repeated repeated ∧
    Relation.ReflTransGen (LeadsWithin edges ids) repeated id

theorem leadsWithin_le_leads (edges : List Edge) (ids : List NodeId) :
    LeadsWithin edges ids ≤ Leads edges :=
  fun _ _ leads => leads.2.2

theorem LeadsWithin.mono {ids others : List NodeId} (subset : ids ⊆ others) :
    LeadsWithin edges ids ≤ LeadsWithin edges others :=
  fun _ _ leads => ⟨subset leads.1, subset leads.2.1, leads.2.2⟩

/-- The members of a list from which a relation leads to a value. -/
def leadingTo {Value : Type} (relation : Value -> Value -> Prop) (values : List Value)
    (value : Value) : Set Value :=
  {previous | previous ∈ values ∧ Relation.ReflTransGen relation previous value}

/-- Where every member of a list has a predecessor in the list, going back
from any member comes to a cycle. -/
theorem exists_cycle_behind {Value : Type} {relation : Value -> Value -> Prop}
    {values : List Value}
    (preceded : forall value, value ∈ values ->
      ∃ previous, previous ∈ values ∧ relation previous value)
    {value : Value} (member : value ∈ values) :
    ∃ repeated, Relation.TransGen relation repeated repeated ∧
      Relation.ReflTransGen relation repeated value := by
  apply Classical.byContradiction
  intro none
  -- Without a cycle the relation is well-founded on what leads to the value,
  -- yet each of these has a predecessor that leads there too.
  have finite : Finite (leadingTo relation values value) :=
    ((List.finite_toSet values).subset (fun _ leads => leads.1)).to_subtype
  have irreflexive : Std.Irrefl
      (Subrel (Relation.TransGen relation) (· ∈ leadingTo relation values value)) :=
    ⟨fun previous cycle => none ⟨previous, cycle, previous.2.2⟩⟩
  have wellFounded : (leadingTo relation values value).WellFoundedOn (Relation.TransGen relation) :=
    Finite.wellFounded_of_trans_of_irrefl _
  refine wellFounded.induction (P := fun _ => False) ⟨member, .refl⟩ ?_
  intro first leads ih
  rcases preceded first leads.1 with ⟨previous, among, related⟩
  exact ih previous ⟨among, leads.2.head related⟩ (.single related)

theorem mem_of_behindCycle {ids : List NodeId} {id : NodeId} (behind : BehindCycle edges ids id) :
    id ∈ ids := by
  rcases behind with ⟨repeated, cycle, way⟩
  rcases Relation.TransGen.tail'_iff.mp (cycle.trans_left way) with ⟨_, _, leads⟩
  exact leads.2.1

/-! ## What is left out waits for what is left out -/

/-- A node that no round places has an edge from another such identifier. -/
theorem exists_leadsWithin_unreachableIds (member : entry ∈ nodes) {id : NodeId}
    (left : id ∈ unreachableIds nodes (agenda registry nodes edges entry)) :
    ∃ source, source ∈ unreachableIds nodes (agenda registry nodes edges entry) ∧
      LeadsWithin edges (unreachableIds nodes (agenda registry nodes edges entry)) source id := by
  rcases mem_unreachableIds.mp left with ⟨known, fresh⟩
  rcases List.mem_map.mp known with ⟨node, listed, rfl⟩
  have waits : ¬ Settled nodes edges
      {id | id ∈ plannedIds (agenda registry nodes edges entry)} node.id := by
    intro settled
    exact fresh ((closed_plannedIds registry edges member).admits node listed (Or.inr settled))
  simp only [Settled, not_forall] at waits
  rcases waits with ⟨edge, drawn, target, inside, unplanned⟩
  have leftToo := mem_unreachableIds.mpr ⟨inside, unplanned⟩
  exact ⟨edge.source, leftToo, leftToo, left, edge, drawn, rfl, target⟩

/-- What is left out is exactly what lies behind a cycle of what is left out. -/
theorem mem_unreachableIds_iff_behindCycle (member : entry ∈ nodes) {id : NodeId} :
    id ∈ unreachableIds nodes (agenda registry nodes edges entry) ↔
      BehindCycle edges (unreachableIds nodes (agenda registry nodes edges entry)) id :=
  ⟨exists_cycle_behind (fun _ left => exists_leadsWithin_unreachableIds member left),
    mem_of_behindCycle⟩

/-- A document without a cycle is planned whole. -/
theorem unreachableIds_eq_nil_of_acyclic (member : entry ∈ nodes) (acyclic : Acyclic edges) :
    unreachableIds nodes (agenda registry nodes edges entry) = [] := by
  apply List.eq_nil_iff_forall_not_mem.mpr
  intro id left
  rcases (mem_unreachableIds_iff_behindCycle member).mp left with ⟨repeated, cycle, _⟩
  exact acyclic repeated
    (Relation.TransGen.mono (leadsWithin_le_leads _ _) repeated repeated cycle)

/-- What a list of unreachable identifiers says about its document. -/
structure Stalled (registry : Registry) (nodes : List Node) (edges : List Edge)
    (ids : List NodeId) : Prop where
  nonempty : ids ≠ []
  nodup : ids.Nodup
  known : ids ⊆ nodes.map Node.id
  ordered : ids.Pairwise (fun first second =>
    (nodes.map Node.id).idxOf first < (nodes.map Node.id).idxOf second)
  started : forall entry, entryPoint? registry nodes = some entry -> entry.id ∉ ids
  preceded : forall target, target ∈ ids ->
    ∃ edge, edge ∈ edges ∧ edge.target = target ∧ edge.source ∈ ids
  cycle : ∃ repeated, Relation.TransGen (LeadsWithin edges ids) repeated repeated
  behind : forall id, id ∈ ids -> BehindCycle edges ids id

theorem stalled_unreachableIds (found : entryPoint? registry nodes = some entry)
    (nonempty : unreachableIds nodes (agenda registry nodes edges entry) ≠ []) :
    Stalled registry nodes edges (unreachableIds nodes (agenda registry nodes edges entry)) := by
  have member := entry_mem found
  have ordered := pairwise_idxOf_unreachableIds nodes (agenda registry nodes edges entry)
  have behind : forall id, id ∈ unreachableIds nodes (agenda registry nodes edges entry) ->
      BehindCycle edges (unreachableIds nodes (agenda registry nodes edges entry)) id :=
    fun id left => (mem_unreachableIds_iff_behindCycle member).mp left
  constructor
  case nonempty => exact nonempty
  case nodup =>
    refine ordered.imp ?_
    rintro first second before rfl
    exact Nat.lt_irrefl _ before
  case known => exact (unreachableIds_sublist _).subset
  case ordered => exact ordered
  case started =>
    intro other foundToo left
    cases found.symm.trans foundToo
    exact (mem_unreachableIds.mp left).2 (closed_plannedIds registry edges member).entry
  case preceded =>
    intro target left
    rcases exists_leadsWithin_unreachableIds member left with
      ⟨_, leftToo, _, _, edge, drawn, rfl, same⟩
    exact ⟨edge, drawn, same, leftToo⟩
  case cycle =>
    rcases List.exists_mem_of_ne_nil _ nonempty with ⟨id, left⟩
    rcases behind id left with ⟨repeated, cycle, _⟩
    exact ⟨repeated, cycle⟩
  case behind => exact behind

/-- Identifiers that are called unreachable lie on a cycle of each other or
behind one, so that a document whose nodes form no cycle has none. -/
theorem stalled_of_compile (registry : Registry) (nodes : List Node) (edges : List Edge) :
    (forall ids, compile registry nodes edges = .error (.unreachableNodes ids) ->
      Stalled registry nodes edges ids) ∧
    ((forall id, ¬ Relation.TransGen (LeadsWithin edges (nodes.map Node.id)) id id) ->
      forall ids, compile registry nodes edges ≠ .error (.unreachableNodes ids)) := by
  have stalled : forall ids, compile registry nodes edges = .error (.unreachableNodes ids) ->
      Stalled registry nodes edges ids := by
    intro ids answer
    cases found : entryPoint? registry nodes with
    | none =>
        rw [compile_of_no_entry found] at answer
        cases answer
    | some entry =>
        rcases (compile_eq_unreachableNodes_iff found ids).mp answer with ⟨_, nonempty, rfl⟩
        exact stalled_unreachableIds found nonempty
  refine ⟨stalled, ?_⟩
  intro acyclic ids answer
  have left := stalled ids answer
  rcases left.cycle with ⟨repeated, cycle⟩
  exact acyclic repeated (Relation.TransGen.mono (LeadsWithin.mono left.known) repeated repeated cycle)

def stalledNodes : List Node :=
  [Node.blank "behind" "STEP", Node.blank "left" "STEP", Node.blank "start" "START",
    Node.blank "right" "STEP", Node.blank "left" "STEP", Node.blank "beside" "STEP"]

/-- A cycle through a repeated identifier, with an edge from nowhere into it. -/
def stalledEdges : List Edge :=
  [joined "left" "right" "in", joined "right" "left" "in", joined "nowhere" "left" "extra",
    joined "right" "behind" "in", joined "start" "behind" "extra", joined "start" "beside" "in"]

def outsideNodes : List Node := [Node.blank "start" "START", Node.blank "step" "STEP"]

/-- The cycle is not one of the nodes of the document. -/
def outsideEdges : List Edge := [joined "nowhere" "nowhere" "in", joined "start" "step" "in"]

theorem outside_way_eq {source target : NodeId}
    (way : Relation.TransGen (LeadsWithin outsideEdges (outsideNodes.map Node.id)) source target) :
    source = "start" ∧ target = "step" := by
  have step : forall {source target : NodeId},
      LeadsWithin outsideEdges (outsideNodes.map Node.id) source target ->
        source = "start" ∧ target = "step" := by
    rintro source target ⟨known, _, edge, drawn, rfl, rfl⟩
    rcases List.mem_pair.mp drawn with rfl | rfl
    · exact absurd known (by decide)
    · exact ⟨rfl, rfl⟩
  induction way with
  | single leads => exact step leads
  | tail _ leads ih => exact ⟨ih.1, (step leads).2⟩

/-- The node beside the cycle is planned, and the one behind it is not. -/
theorem stalled_repeated :
    compile sampleTasks stalledNodes stalledEdges
        = .error (.unreachableNodes ["behind", "left", "right"]) ∧
      Stalled sampleTasks stalledNodes stalledEdges ["behind", "left", "right"] ∧
      (forall id, ¬ Relation.TransGen
        (LeadsWithin outsideEdges (outsideNodes.map Node.id)) id id) ∧
      forall ids, compile sampleTasks outsideNodes outsideEdges
        ≠ .error (.unreachableNodes ids) := by
  have answer : compile sampleTasks stalledNodes stalledEdges
      = .error (.unreachableNodes ["behind", "left", "right"]) := by rfl
  have acyclic : forall id, ¬ Relation.TransGen
      (LeadsWithin outsideEdges (outsideNodes.map Node.id)) id id := by
    intro id cycle
    rcases outside_way_eq cycle with ⟨start, step⟩
    exact absurd (start.symm.trans step) (by decide)
  exact ⟨answer, (stalled_of_compile sampleTasks stalledNodes stalledEdges).1 _ answer, acyclic,
    (stalled_of_compile sampleTasks outsideNodes outsideEdges).2 acyclic⟩

/-! ## An input that nothing fills -/

/-- A required input of the node that nothing is typed into and no edge feeds. -/
structure Unfilled (registry : Registry) (edges : List Edge) (node : Node) (input : InputPort) :
    Prop where
  declared : ∃ definition, registry node.taskType = some definition ∧ input ∈ definition.inputs
  required : input.required = true
  untyped : node.literal? input.name = none
  unfed : feeder? edges node.id input.name = none

/-- Whatever is planned, the input stays missing. -/
theorem Unfilled.mem_missingInputs {node : Node} {input : InputPort}
    (unfilled : Unfilled registry edges node input) (planned : List NodeId) :
    input.name ∈ missingInputs registry edges planned node := by
  rcases unfilled.declared with ⟨definition, known, declared⟩
  have unprovided : isProvided edges planned node input = false := by
    simp only [isProvided, unfilled.untyped, unfilled.unfed, unfilled.required, Bool.not_true]
  simp only [missingInputs, known]
  exact List.mem_map_of_mem (List.mem_filter.mpr ⟨declared, by simp [unprovided]⟩)

/-- Once its node is placed, the input is reported. -/
theorem Unfilled.reported (distinct : (nodes.map Node.id).Nodup) (member : entry ∈ nodes)
    {node : Node} {input : InputPort} (listed : node ∈ nodes)
    (unfilled : Unfilled registry edges node input)
    (planned : node.id ∈ plannedIds (agenda registry nodes edges entry)) :
    ∃ element, element ∈ invalidElements (agenda registry nodes edges entry) ∧
      element.node = node.id ∧ input.name ∈ element.inputs := by
  rcases mem_plannedIds.mp planned with ⟨slot, among, same⟩
  have missing : input.name ∈ slot.missing := by
    rcases slot_of_agenda among with rfl | ⟨planned, _, _, placed⟩
    · rw [node_eq_of_id_eq distinct listed member same.symm] at unfilled
      exact unfilled.mem_missingInputs [entry.id]
    · rw [placed.missing, node_eq_of_id_eq distinct placed.member listed same]
      exact unfilled.mem_missingInputs planned
  exact ⟨⟨slot.id, slot.missing⟩,
    mem_invalidElements.mpr ⟨slot, among, List.ne_nil_of_mem missing, rfl⟩, same, missing⟩

/-- The answer lists this input of the node as missing. -/
def ReportsMissing (answer : Except PlanError Plan) (node : Node) (input : InputPort) : Prop :=
  ∃ elements, answer = .error (.invalidInputs elements) ∧
    ∃ element, element ∈ elements ∧ element.node = node.id ∧ input.name ∈ element.inputs

/-- An unfilled input is reported exactly where its node is placed. -/
theorem Unfilled.reports_iff (distinct : (nodes.map Node.id).Nodup)
    (found : entryPoint? registry nodes = some entry) {node : Node} {input : InputPort}
    (listed : node ∈ nodes) (unfilled : Unfilled registry edges node input) :
    ReportsMissing (compile registry nodes edges) node input ↔
      node.id ∈ plannedIds (agenda registry nodes edges entry) := by
  constructor
  · rintro ⟨elements, answer, element, reported, same, _⟩
    rcases (compile_eq_invalidInputs_iff found elements).mp answer with ⟨_, rfl⟩
    rw [← same]
    exact mem_plannedIds_of_mem_invalidElements reported
  · intro planned
    rcases unfilled.reported distinct (entry_mem found) listed planned with
      ⟨element, reported, same, missing⟩
    exact ⟨_, (compile_eq_invalidInputs_iff found _).mpr ⟨List.ne_nil_of_mem reported, rfl⟩,
      element, reported, same, missing⟩

/-- A document with an unfilled input has no plan.  The input is reported
exactly where its node is in the least set that a schedule cannot leave, so
where the node is not on or behind a cycle of what is outside that set; there
the answer may name unreachable nodes instead. -/
theorem unfilled_reported_iff (distinct : (nodes.map Node.id).Nodup)
    (found : entryPoint? registry nodes = some entry) {node : Node} {input : InputPort}
    (listed : node ∈ nodes) (unfilled : Unfilled registry edges node input) :
    (forall plan, compile registry nodes edges ≠ .ok plan) ∧
      ∃ reached left, IsLeast {ids | Closed registry nodes edges entry ids} reached ∧
        (forall id, id ∈ left ↔ id ∈ nodes.map Node.id ∧ id ∉ reached) ∧
        (ReportsMissing (compile registry nodes edges) node input ↔ node.id ∈ reached) ∧
        (node.id ∈ reached ↔ ¬ BehindCycle edges left node.id) := by
  have member := entry_mem found
  have reports := unfilled.reports_iff distinct found listed
  constructor
  · intro plan answer
    rcases (compile_eq_ok_iff found plan).mp answer with ⟨_, complete, _⟩
    have planned := unreachableIds_eq_nil_iff.mp complete node listed
    rcases reports.mpr planned with ⟨elements, refused, _⟩
    cases answer.symm.trans refused
  · refine ⟨{id | id ∈ plannedIds (agenda registry nodes edges entry)},
      unreachableIds nodes (agenda registry nodes edges entry), isLeast_plannedIds member,
      fun _ => mem_unreachableIds, reports, ?_⟩
    rw [← mem_unreachableIds_iff_behindCycle member, mem_unreachableIds, not_and_not_right]
    exact ⟨fun planned _ => planned, fun planned => planned (List.mem_map_of_mem listed)⟩

/-- A step beside a cycle, and a step on it, neither with its required input. -/
def barredNodes : List Node :=
  [Node.blank "loop" "STEP", Node.blank "start" "START", Node.blank "bare" "STEP"]

def barredEdges : List Edge :=
  [joined "start" "bare" "extra", joined "loop" "loop" "extra"]

theorem unfilled_beside_cycle :
    (barredNodes.map Node.id).Nodup ∧
      entryPoint? sampleTasks barredNodes = some (Node.blank "start" "START") ∧
      Unfilled sampleTasks barredEdges (Node.blank "bare" "STEP") (InputPort.needed "in" .string) ∧
      compile sampleTasks barredNodes barredEdges = .error (.invalidInputs [⟨"bare", ["in"]⟩]) ∧
      ∃ reached left, IsLeast {ids | Closed sampleTasks barredNodes barredEdges
          (Node.blank "start" "START") ids} reached ∧
        (forall id, id ∈ left ↔ id ∈ barredNodes.map Node.id ∧ id ∉ reached) ∧
        "bare" ∈ reached ∧ ¬ BehindCycle barredEdges left "bare" := by
  have distinct : (barredNodes.map Node.id).Nodup := by decide
  have found : entryPoint? sampleTasks barredNodes = some (Node.blank "start" "START") := by rfl
  have unfilled : Unfilled sampleTasks barredEdges (Node.blank "bare" "STEP")
      (InputPort.needed "in" .string) := ⟨⟨_, rfl, List.mem_cons_self⟩, rfl, rfl, rfl⟩
  have answer : compile sampleTasks barredNodes barredEdges
      = .error (.invalidInputs [⟨"bare", ["in"]⟩]) := by rfl
  rcases (unfilled_reported_iff distinct found (by decide) unfilled).2 with
    ⟨reached, left, least, outside, reports, behind⟩
  have bare : "bare" ∈ reached :=
    reports.mp ⟨_, answer, _, List.mem_cons_self, rfl, List.mem_cons_self⟩
  exact ⟨distinct, found, unfilled, answer, reached, left, least, outside, bare, behind.mp bare⟩

def loopNodes : List Node :=
  [(Node.blank "open" "LAUNCH_BROWSER").withInput "Website URL" "typed",
    Node.blank "loop" "PAGE_TO_HTML"]

/-- An edge without ports provides nothing, and still has to be waited for. -/
def loopEdges : List Edge := [Edge.between "loop" "loop"]

/-- On a cycle an unfilled input goes unreported. -/
theorem unfilled_loop_unreported :
    (loopNodes.map Node.id).Nodup ∧
      (entryPoint? Catalog.builtin.lookup loopNodes).map Node.id = some "open" ∧
      Node.blank "loop" "PAGE_TO_HTML" ∈ loopNodes ∧
      Unfilled Catalog.builtin.lookup loopEdges (Node.blank "loop" "PAGE_TO_HTML")
        TaskKind.webPageIn ∧
      compile Catalog.builtin.lookup loopNodes loopEdges
        = .error (.unreachableNodes ["loop"]) := by
  have known : Catalog.builtin.lookup "PAGE_TO_HTML"
      = some TaskKind.pageToHtml.definition := by rfl
  have unfilled : Unfilled Catalog.builtin.lookup loopEdges (Node.blank "loop" "PAGE_TO_HTML")
      TaskKind.webPageIn := ⟨⟨_, known, List.mem_cons_self⟩, rfl, rfl, rfl⟩
  have listed : Node.blank "loop" "PAGE_TO_HTML" ∈ loopNodes :=
    List.mem_cons_of_mem _ (List.mem_singleton.mpr rfl)
  exact ⟨by decide, rfl, listed, unfilled, rfl⟩

end FlowPlan
