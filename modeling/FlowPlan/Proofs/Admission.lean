import FlowPlan.Proofs.Guard
import FlowPlan.Proofs.Unreached
import FlowPlan.Proofs.Ways
import Mathlib.Data.List.Permutation

namespace FlowPlan

/-!
Which connections are admitted, and why another is refused.

`Admitted` lists what has to hold of a connection, without an order.  `Refused`
lists the refusals in the order in which they are considered: each of them
assumes that no earlier one applies, so that at most one applies at all.
-/

section Rules

variable (registry : Registry) (nodes : List Node) (edges : List Edge) (connection : Edge)

/-- Nothing behind `target` leads to `source`, and a single way leads to each
node behind `target`.  Ways go along the edges inside the document, and
parallel edges make one way. -/
def Treelike (source target : NodeId) : Prop :=
  ¬ Relation.ReflTransGen (LeadsWithin edges (nodes.map Node.id)) target source ∧
    forall id, Relation.ReflTransGen (LeadsWithin edges (nodes.map Node.id)) target id ->
      ∃! passed, Way (LeadsWithin edges (nodes.map Node.id)) target passed id

structure Admitted : Prop where
  different : connection.source ≠ connection.target
  fits : Fits registry nodes connection
  treelike : Treelike nodes edges connection.source connection.target

/-- Why an identifier denotes no task. -/
inductive NoTask (id : NodeId) : EditError -> Prop
  | absent (none : nodeNamed? nodes id = none) : NoTask id (.nodeNotFound id)
  | unknown {node : Node} (found : nodeNamed? nodes id = some node)
      (none : registry node.taskType = none) : NoTask id (.unknownTaskType id node.taskType)

/-- Why a connection joins no output to a connectable input. -/
inductive Unjoined : EditError -> Prop
  | source {error : EditError} (noTask : NoTask registry nodes connection.source error) :
      Unjoined error
  | target {offering : TaskDefinition} {error : EditError}
      (source : Performs registry nodes connection.source offering)
      (noTask : NoTask registry nodes connection.target error) : Unjoined error
  | sourceHandle {offering accepting : TaskDefinition}
      (source : Performs registry nodes connection.source offering)
      (target : Performs registry nodes connection.target accepting)
      (unnamed : connection.sourceHandle = none) : Unjoined (.missingHandle connection.source)
  | targetHandle {offering accepting : TaskDefinition} {sourceName : String}
      (source : Performs registry nodes connection.source offering)
      (target : Performs registry nodes connection.target accepting)
      (sourceNamed : connection.sourceHandle = some sourceName)
      (unnamed : connection.targetHandle = none) : Unjoined (.missingHandle connection.target)
  | output {offering accepting : TaskDefinition} {sourceName targetName : String}
      (source : Performs registry nodes connection.source offering)
      (target : Performs registry nodes connection.target accepting)
      (sourceNamed : connection.sourceHandle = some sourceName)
      (targetNamed : connection.targetHandle = some targetName)
      (absent : offering.output? sourceName = none) :
      Unjoined (.sourcePortNotFound connection.source sourceName)
  | input {offering accepting : TaskDefinition} {sourceName targetName : String}
      {output : OutputPort}
      (source : Performs registry nodes connection.source offering)
      (target : Performs registry nodes connection.target accepting)
      (sourceNamed : connection.sourceHandle = some sourceName)
      (targetNamed : connection.targetHandle = some targetName)
      (offers : offering.output? sourceName = some output)
      (absent : accepting.input? targetName = none) :
      Unjoined (.targetPortNotFound connection.target targetName)
  | hidden {offering accepting : TaskDefinition} {sourceName targetName : String}
      {output : OutputPort} {input : InputPort}
      (source : Performs registry nodes connection.source offering)
      (target : Performs registry nodes connection.target accepting)
      (sourceNamed : connection.sourceHandle = some sourceName)
      (targetNamed : connection.targetHandle = some targetName)
      (offers : offering.output? sourceName = some output)
      (accepts : accepting.input? targetName = some input)
      (unconnectable : input.isConnectable = false) :
      Unjoined (.targetNotConnectable connection.target targetName)

/-- The first rule that a connection breaks. -/
inductive Refused : EditError -> Prop
  | selfLoop (same : connection.source = connection.target) :
      Refused (.selfLoop connection.source)
  | unjoined {error : EditError} (different : connection.source ≠ connection.target)
      (unjoined : Unjoined registry nodes connection error) : Refused error
  | portTypes {output : OutputPort} {input : InputPort}
      (different : connection.source ≠ connection.target)
      (joins : Joins registry nodes connection output input)
      (incompatible : output.portType ≠ input.portType) :
      Refused (.incompatiblePorts connection.source output.portType connection.target
        input.portType)
  | tangled (different : connection.source ≠ connection.target)
      (fits : Fits registry nodes connection)
      (tangled : ¬ Treelike nodes edges connection.source connection.target) :
      Refused (.cycleDetected connection.source connection.target)

end Rules

section Checks

variable {registry : Registry} {nodes : List Node} {edges : List Edge} {connection : Edge}
  {error : EditError}

theorem linked_eq_leadsWithin :
    (DependencyGraph.ofDocument nodes edges).Linked
      = LeadsWithin edges (nodes.map Node.id) := by
  ext source target
  rw [DependencyGraph.linked_ofDocument_iff, LeadsWithin]
  exact ⟨fun linked => ⟨linked.2.1, linked.2.2, linked.1⟩,
    fun leads => ⟨leads.2.2, leads.1, leads.2.1⟩⟩

theorem treelike_iff_clear {source target : NodeId} :
    Treelike nodes edges source target ↔
      Clear (DependencyGraph.ofDocument nodes edges).Linked source target := by
  rw [linked_eq_leadsWithin]
  exact clear_iff_way_unique.symm

/-! ## Refusals of each check -/

theorem bind_eq_error_iff {Error First Second : Type} {attempt : Except Error First}
    {next : First -> Except Error Second} {error : Error} :
    (attempt >>= next) = .error error ↔
      attempt = .error error ∨ ∃ value, attempt = .ok value ∧ next value = .error error := by
  cases attempt with
  | error first =>
      constructor
      · rintro ⟨⟩
        exact Or.inl rfl
      · rintro (⟨⟨⟩⟩ | ⟨_, impossible, _⟩)
        · rfl
        · cases impossible
  | ok value =>
      constructor
      · intro refused
        exact Or.inr ⟨value, rfl, refused⟩
      · rintro (impossible | ⟨_, attempted, refused⟩)
        · cases impossible
        · cases attempted
          exact refused

theorem EditError.require_eq_error_iff {Value : Type} {reason error : EditError}
    {value? : Option Value} :
    reason.require value? = .error error ↔ value? = none ∧ reason = error := by
  cases value? <;> simp [EditError.require]

theorem taskOf_eq_error_iff {id : NodeId} :
    taskOf registry nodes id = .error error ↔ NoTask registry nodes id error := by
  simp only [taskOf, bind_eq_error_iff, EditError.require_eq_ok_iff,
    EditError.require_eq_error_iff]
  constructor
  · rintro (⟨none, rfl⟩ | ⟨node, found, none, rfl⟩)
    · exact .absent none
    · exact .unknown found none
  · intro noTask
    cases noTask with
    | absent none => exact Or.inl ⟨none, rfl⟩
    | unknown found none => exact Or.inr ⟨_, found, none, rfl⟩

theorem connectedPorts_eq_error_iff :
    connectedPorts registry nodes connection = .error error ↔
      Unjoined registry nodes connection error := by
  simp only [connectedPorts, bind_eq_error_iff, EditError.require_eq_ok_iff,
    EditError.require_eq_error_iff, taskOf_eq_ok_iff, taskOf_eq_error_iff]
  constructor
  · rintro (noTask | ⟨offering, source, noTask | ⟨accepting, target, ⟨unnamed, rfl⟩ |
      ⟨sourceName, sourceNamed, ⟨unnamed, rfl⟩ | ⟨targetName, targetNamed, ⟨absent, rfl⟩ |
        ⟨output, offers, ⟨absent, rfl⟩ | ⟨input, accepts, refused⟩⟩⟩⟩⟩⟩)
    · exact .source noTask
    · exact .target source noTask
    · exact .sourceHandle source target unnamed
    · exact .targetHandle source target sourceNamed unnamed
    · exact .output source target sourceNamed targetNamed absent
    · exact .input source target sourceNamed targetNamed offers absent
    · split at refused
      · cases refused
      · rename_i hidden
        cases refused
        exact .hidden source target sourceNamed targetNamed offers accepts
          (eq_false_of_ne_true hidden)
  · intro unjoined
    cases unjoined with
    | source noTask => exact Or.inl noTask
    | target source noTask => exact Or.inr ⟨_, source, Or.inl noTask⟩
    | sourceHandle source target unnamed =>
        exact Or.inr ⟨_, source, Or.inr ⟨_, target, Or.inl ⟨unnamed, rfl⟩⟩⟩
    | targetHandle source target sourceNamed unnamed =>
        exact Or.inr ⟨_, source, Or.inr ⟨_, target, Or.inr ⟨_, sourceNamed,
          Or.inl ⟨unnamed, rfl⟩⟩⟩⟩
    | output source target sourceNamed targetNamed absent =>
        exact Or.inr ⟨_, source, Or.inr ⟨_, target, Or.inr ⟨_, sourceNamed,
          Or.inr ⟨_, targetNamed, Or.inl ⟨absent, rfl⟩⟩⟩⟩⟩
    | input source target sourceNamed targetNamed offers absent =>
        exact Or.inr ⟨_, source, Or.inr ⟨_, target, Or.inr ⟨_, sourceNamed,
          Or.inr ⟨_, targetNamed, Or.inr ⟨_, offers, Or.inl ⟨absent, rfl⟩⟩⟩⟩⟩⟩
    | hidden source target sourceNamed targetNamed offers accepts unconnectable =>
        refine Or.inr ⟨_, source, Or.inr ⟨_, target, Or.inr ⟨_, sourceNamed,
          Or.inr ⟨_, targetNamed, Or.inr ⟨_, offers, Or.inr ⟨_, accepts, ?_⟩⟩⟩⟩⟩⟩
        rw [if_neg (by rw [unconnectable]; exact Bool.false_ne_true)]

theorem validateConnection_eq_ok_iff_admitted :
    validateConnection registry nodes edges connection = .ok () ↔
      Admitted registry nodes edges connection := by
  rw [validateConnection_eq_ok_iff, ← treelike_iff_clear]
  constructor
  · rintro ⟨fits, treelike⟩
    exact ⟨(treelike_iff_clear.mp treelike).different, fits, treelike⟩
  · intro admitted
    exact ⟨admitted.fits, admitted.treelike⟩

theorem validateConnection_eq_error_iff :
    validateConnection registry nodes edges connection = .error error ↔
      Refused registry nodes edges connection error := by
  unfold validateConnection
  by_cases same : connection.source = connection.target
  · rw [if_pos same]
    constructor
    · rintro ⟨⟩
      exact .selfLoop same
    · intro refused
      cases refused with
      | selfLoop _ => rfl
      | unjoined different _ => exact absurd same different
      | portTypes different _ _ => exact absurd same different
      | tangled different _ _ => exact absurd same different
  · rw [if_neg same, bind_eq_error_iff, connectedPorts_eq_error_iff]
    have closes : (DependencyGraph.ofDocument nodes edges).walkCloses connection.source []
        [connection.target] = true ↔
          ¬ Treelike nodes edges connection.source connection.target := by
      rw [treelike_iff_clear, ← DependencyGraph.walkCloses_ofDocument_eq_false_iff same,
        Bool.not_eq_false]
    constructor
    · rintro (unjoined | ⟨⟨output, input⟩, joined, refused⟩)
      · exact .unjoined same unjoined
      · have joins := connectedPorts_eq_ok_iff.mp joined
        by_cases compatible : output.portType = input.portType
        · simp only [compatible, ne_eq, not_true_eq_false, if_false] at refused
          split at refused
          · rename_i closed
            cases refused
            exact .tangled same ⟨output, input, joins, compatible⟩ (closes.mp closed)
          · cases refused
        · simp only [ne_eq, compatible, not_false_eq_true, if_true] at refused
          cases refused
          exact .portTypes same joins compatible
    · intro refused
      cases refused with
      | selfLoop equal => exact absurd equal same
      | unjoined _ unjoined => exact Or.inl unjoined
      | portTypes _ joins incompatible =>
          exact Or.inr ⟨_, connectedPorts_eq_ok_iff.mpr joins, if_pos incompatible⟩
      | tangled _ fits tangled =>
          rcases fits with ⟨output, input, joins, compatible⟩
          refine Or.inr ⟨(output, input), connectedPorts_eq_ok_iff.mpr joins, ?_⟩
          simp only [compatible, ne_eq, not_true_eq_false, if_false, closes.mpr tangled, if_true]

end Checks

/-- A connection is admitted exactly where its ports fit and a tree is behind
its target, and a refusal names the first rule that is broken.  The walk behind
the target ends on every graph, and what it finds does not depend on the order
in which it takes its nodes. -/
theorem verdict_of_connection (registry : Registry) (nodes : List Node) (edges : List Edge)
    (connection : Edge) :
    (validateConnection registry nodes edges connection = .ok () ↔
      Admitted registry nodes edges connection) ∧
    (forall error, validateConnection registry nodes edges connection = .error error ↔
      Refused registry nodes edges connection error) ∧
    (forall source target visited pending,
      (DependencyGraph.ofDocument nodes edges).Walked source target visited pending ->
        (DependencyGraph.ofDocument nodes edges).Agrees source target visited pending) :=
  ⟨validateConnection_eq_ok_iff_admitted, fun _ => validateConnection_eq_error_iff,
    fun _ _ _ _ walked => walked.agrees (DependencyGraph.nodup_outgoers_ofDocument nodes edges)⟩

def diamondNodes : List Node :=
  [Node.blank "start" "START", Node.blank "top" "STEP", Node.blank "left" "STEP",
    Node.blank "right" "STEP", Node.blank "meet" "STEP"]

def diamondEdges : List Edge :=
  [joined "top" "left" "in", joined "top" "right" "in", joined "left" "meet" "in",
    joined "right" "meet" "extra"]

/-- Two ways that meet behind the target are refused, although no cycle would
be closed. -/
theorem verdict_of_diamond :
    validateConnection sampleTasks diamondNodes diamondEdges (joined "start" "top" "in")
        = .error (.cycleDetected "start" "top") ∧
      Refused sampleTasks diamondNodes diamondEdges (joined "start" "top" "in")
        (.cycleDetected "start" "top") ∧
      (DependencyGraph.ofDocument diamondNodes diamondEdges).Walked "start" "top"
        ["right", "top"] ["meet", "left"] ∧
      (DependencyGraph.ofDocument diamondNodes diamondEdges).Agrees "start" "top"
        ["right", "top"] ["meet", "left"] := by
  have verdict := verdict_of_connection sampleTasks diamondNodes diamondEdges
    (joined "start" "top" "in")
  have refused : validateConnection sampleTasks diamondNodes diamondEdges
      (joined "start" "top" "in") = .error (.cycleDetected "start" "top") := by cbv
  have walked : (DependencyGraph.ofDocument diamondNodes diamondEdges).Walked "start" "top"
      ["right", "top"] ["meet", "left"] := by
    have first : (DependencyGraph.ofDocument diamondNodes diamondEdges).Walked "start" "top"
        ["top"] ["left", "right"] := .turn .start (List.Perm.refl _) (by decide) (by decide)
    exact first.turn (List.Perm.swap "right" "left" []) (by decide) (by decide)
  exact ⟨refused, (verdict.2.1 _).mp refused, walked, verdict.2.2 _ _ _ _ walked⟩

end FlowPlan
