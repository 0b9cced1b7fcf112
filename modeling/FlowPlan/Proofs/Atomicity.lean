import FlowPlan.Flow.InPlace
import FlowPlan.Workflow.InPlace
import FlowPlan.Proofs.Denoted
import FlowPlan.Proofs.Guard
import FlowPlan.Proofs.Provision
import FlowPlan.Proofs.Publishing

namespace FlowPlan

/-!
Edits in place change what they answer for and nothing else.

A program that writes as it goes could leave half an edit behind.  None does,
since each makes all its checks before its first write, also the check that an
input is free, which comes after the connection has been accepted.  Therefore
the programs do what the edits of flows and workflows say.

The edge last drawn is the only one that feeds its input, so that taking out
the first edge between the two nodes that feeds it finds this edge.
-/

/-! ## The programs and the edits -/

section Programs

variable {State Error Value : Type}

/-- The end of a program that keeps the state where the attempt is refused. -/
def attemptEnd (state : State) : Except Error State -> EStateM.Result Error State Unit
  | .ok changed => .ok () changed
  | .error error => .error error state

/-- The end of a program that keeps the state where there is nothing to take. -/
def takingEnd (state : State) : Option (Value × State) -> EStateM.Result Error State (Option Value)
  | some (value, rest) => .ok (some value) rest
  | none => .ok none state

theorem run_ofExcept (answer : Except Error Value) (state : State) :
    (MonadExcept.ofExcept answer : EStateM Error State Value).run state
      = match answer with
        | .ok value => .ok value state
        | .error error => .error error state := by
  cases answer <;> rfl

variable (registry : Registry) (flow : Flow)

theorem Flow.run_removingNode (id : NodeId) :
    (removingNode id).run flow = takingEnd flow (flow.removeNode? id) := by
  simp only [removingNode, removeNode?, EStateM.run_bind, EStateM.run_get]
  cases flow.node? id <;> rfl

theorem Flow.run_settingInput (id : NodeId) (name value : String) :
    (settingInput id name value).run flow = attemptEnd flow (flow.setInput id name value) := by
  simp only [settingInput, setInput, EStateM.run_bind, EStateM.run_get]
  cases flow.node? id <;> rfl

theorem Flow.run_connecting (connection : Edge) :
    (connecting registry connection).run flow
      = attemptEnd flow (flow.connect registry connection) := by
  simp only [connecting, connect, EStateM.run_bind, EStateM.run_get, run_ofExcept]
  cases flow.validate registry connection with
  | error error => rfl
  | ok _ =>
      cases connection.targetHandle with
      | none => rfl
      | some handle =>
          dsimp only [EditError.require, bind, Except.bind]
          cases feeder? flow.edges connection.target handle <;> rfl

theorem Flow.run_disconnecting (source target : NodeId) (handle : String) :
    (disconnecting source target handle).run flow
      = takingEnd flow (flow.disconnect? source target handle) := by
  simp only [disconnecting, disconnect?, EStateM.run_bind, EStateM.run_get]
  cases flow.edges.find? (fun edge => edge.source == source && edge.feeds target handle) <;> rfl

/-- Edits in place leave the flow that the edits of a session lead to. -/
theorem Flow.run_editing (edit : Edit) :
    EditReply.ofResult ((editing registry edit).run flow) = flow.edit registry edit := by
  cases edit with
  | addNode id kind => rfl
  | removeNode id =>
      simp only [editing, EStateM.run_bind, run_removingNode, Flow.edit]
      cases flow.removeNode? id <;> rfl
  | setInput id name value =>
      simp only [editing, EStateM.run_bind, run_settingInput, Flow.edit]
      cases flow.setInput id name value <;> rfl
  | connect connection =>
      simp only [editing, EStateM.run_bind, run_connecting, Flow.edit]
      cases flow.connect registry connection <;> rfl
  | disconnect source target handle =>
      simp only [editing, EStateM.run_bind, run_disconnecting, Flow.edit]
      cases flow.disconnect? source target handle <;> rfl

end Programs

section Transitions

variable {registry : Registry} {now : Timestamp} {workflow after : Workflow}

theorem Workflow.publishing_eq_ok_iff {plan : Plan} :
    (publishing registry now).run workflow = .ok plan after ↔
      workflow.publish registry now = .ok after ∧ after.executionPlan = some plan := by
  simp only [publishing, publish, EStateM.run_bind, EStateM.run_get]
  cases workflow.status with
  | published => simp
  | draft =>
      cases workflow.definition.compile registry with
      | error error => simp [Except.mapError, run_ofExcept]
      | ok stored =>
          constructor
          · intro ended
            cases ended
            exact ⟨rfl, rfl⟩
          · rintro ⟨published, held⟩
            cases published
            cases held
            rfl

theorem Workflow.publishing_eq_error_iff {error : WorkflowError} :
    (publishing registry now).run workflow = .error error after ↔
      workflow.publish registry now = .error error ∧ after = workflow := by
  simp only [publishing, publish, EStateM.run_bind, EStateM.run_get]
  cases workflow.status with
  | published => simp [eq_comm]
  | draft =>
      cases workflow.definition.compile registry with
      | error error => simp [Except.mapError, run_ofExcept, eq_comm]
      | ok stored =>
          constructor
          · intro ended
            cases ended
          · rintro ⟨refused, _⟩
            cases refused

theorem Workflow.run_unpublishing :
    (unpublishing now).run workflow = attemptEnd workflow (workflow.unpublish now) := by
  simp only [unpublishing, unpublish, EStateM.run_bind, EStateM.run_get]
  cases workflow.status <;> rfl

end Transitions

/-! ## What drawing and taking out leave -/

/-- The input holds the empty text, and all else of the node is the same. -/
structure Cleared (input : String) (node changed : Node) : Prop where
  id : changed.id = node.id
  taskType : changed.taskType = node.taskType
  emptied : changed.inputs.get? input = some ""
  kept : forall other, other ≠ input -> changed.inputs.get? other = node.inputs.get? other

theorem cleared_withInput (input : String) (node : Node) :
    Cleared input node (node.withInput input "") :=
  { id := rfl
    taskType := rfl
    emptied := Dictionary.get?_insert_self _ _ _
    kept := fun _ other => Dictionary.get?_insert_of_ne _ _ other.symm }

/-- The connection stands behind all edges, the first node it ends at has lost
the literal of its input, and cutting the connection takes out that edge. -/
structure Drawn (flow : Flow) (connection : Edge) (input : String) (after : Flow) : Prop where
  named : connection.targetHandle = some input
  edges : after.edges = flow.edges ++ [connection]
  nodes : ∃ before node changed rest, node.id = connection.target ∧
    FirstNamed flow.nodes before node rest ∧ Cleared input node changed ∧
    after.nodes = before ++ changed :: rest
  viewport : after.viewport = flow.viewport
  undone : (Flow.disconnecting connection.source connection.target input).run after
    = .ok (some connection) { after with edges := flow.edges }

/-- The first node of the identifier is gone, with every edge at it. -/
structure TakenOut (flow : Flow) (id : NodeId) (node : Node) (after : Flow) : Prop where
  same : node.id = id
  nodes : ∃ before rest, FirstNamed flow.nodes before node rest ∧ after.nodes = before ++ rest
  edges : after.edges
    = flow.edges.filter (fun edge => decide (edge.source ≠ id ∧ edge.target ≠ id))
  viewport : after.viewport = flow.viewport

section Exact

variable {registry : Registry} {flow after : Flow}

/-- The edge that was drawn last is found where no older one feeds its input. -/
theorem Flow.disconnect?_of_edges_eq_concat {connection : Edge} {input : String}
    {edges : List Edge} (named : connection.targetHandle = some input)
    (free : feeder? edges connection.target input = none)
    (drawn : flow.edges = edges ++ [connection]) :
    flow.disconnect? connection.source connection.target input
      = some (connection, { flow with edges := edges }) := by
  have feeds : connection.feeds connection.target input = true :=
    (feeds_iff_of_named named).mpr ⟨rfl, rfl⟩
  let chosen := fun edge : Edge =>
    edge.source == connection.source && edge.feeds connection.target input
  have selected : chosen connection = true := Bool.and_eq_true_iff.mpr ⟨beq_self_eq_true _, feeds⟩
  have passed : forall edge, edge ∈ edges -> ¬ chosen edge = true := by
    intro edge member both
    exact List.find?_eq_none.mp free edge member (Bool.and_eq_true_iff.mp both).2
  have found : flow.edges.find? chosen = some connection := by
    rw [drawn, List.find?_append, List.find?_eq_none.mpr passed, Option.none_or]
    exact List.find?_cons_of_pos selected
  have left : flow.edges.eraseP chosen = edges := by
    rw [drawn, List.eraseP_append_right _ passed, List.eraseP_cons_of_pos selected,
      List.append_nil]
  change (flow.edges.find? chosen).map
    (fun edge => (edge, { flow with edges := flow.edges.eraseP chosen })) = _
  rw [found, left]
  rfl

theorem drawn_of_connect {connection : Edge}
    (accepted : flow.connect registry connection = .ok after) :
    ∃ input, Drawn flow connection input after := by
  rcases Flow.connect_eq_ok_iff.mp accepted with ⟨valid, input, named, free, rfl⟩
  refine ⟨input, ?_⟩
  constructor
  case named => exact named
  case edges => rfl
  case nodes =>
    have known := (validateConnection_eq_ok_iff.mp valid).1.endpoints.2
    rcases Option.isSome_iff_exists.mp ((nodeNamed?_isSome_iff flow.nodes _).mpr known) with
      ⟨node, denoted⟩
    rcases exists_firstNamed denoted with ⟨same, before, rest, first⟩
    refine ⟨before, node, _, rest, same, first, cleared_withInput input node, ?_⟩
    rw [← same]
    exact first.updateNode_eq _
  case viewport => rfl
  case undone =>
    rw [Flow.run_disconnecting, Flow.disconnect?_of_edges_eq_concat named free rfl]
    rfl

theorem takenOut_of_removeNode? {id : NodeId} {node : Node}
    (taken : flow.removeNode? id = some (node, after)) : TakenOut flow id node after := by
  rcases Option.map_eq_some_iff.mp taken with ⟨_, denoted, same⟩
  cases same
  rcases exists_firstNamed denoted with ⟨rfl, before, rest, first⟩
  constructor
  case same => rfl
  case nodes => exact ⟨before, rest, first, first.eraseP_eq⟩
  case edges =>
    apply List.filter_congr
    intro edge _
    rw [Edge.touches, Bool.not_or, Bool.decide_and, decide_not, decide_not]
    rfl
  case viewport => rfl

end Exact

/-! ## Edits in place -/

section Ends

variable {State Error Value : Type} {state after : State} {error : Error}

theorem attemptEnd_eq_ok_iff {attempt : Except Error State} :
    attemptEnd state attempt = .ok () after ↔ attempt = .ok after := by
  cases attempt <;> simp [attemptEnd]

theorem attemptEnd_eq_error_iff {attempt : Except Error State} :
    attemptEnd state attempt = .error error after ↔ attempt = .error error ∧ after = state := by
  cases attempt <;> simp [attemptEnd, eq_comm]

theorem takingEnd_eq_some_iff {found : Option (Value × State)} {value : Value} :
    (takingEnd state found : EStateM.Result Error State (Option Value)) = .ok (some value) after ↔
      found = some (value, after) := by
  cases found <;> simp [takingEnd, Prod.ext_iff]

theorem eq_of_takingEnd_eq_none {found : Option (Value × State)}
    (nothing : (takingEnd state found : EStateM.Result Error State (Option Value))
      = .ok none after) :
    after = state := by
  cases found with
  | some pair => cases nothing
  | none =>
      cases nothing
      rfl

end Ends

/-- The edits made in place do what the edits of a session do.  Those that are
refused or find nothing leave the flow as it was, and of the others drawing an
edge and taking out a node leave exactly this. -/
structure AtomicEdits (registry : Registry) (flow : Flow) : Prop where
  agrees : forall edit,
    EditReply.ofResult ((Flow.editing registry edit).run flow) = flow.edit registry edit
  connectRefused : forall connection error after,
    (Flow.connecting registry connection).run flow = .error error after -> after = flow
  inputRefused : forall id name value error after,
    (Flow.settingInput id name value).run flow = .error error after -> after = flow
  nothingRemoved : forall id after,
    (Flow.removingNode id).run flow = .ok none after -> after = flow
  nothingCut : forall source target input after,
    (Flow.disconnecting source target input).run flow = .ok none after -> after = flow
  drawn : forall connection after,
    (Flow.connecting registry connection).run flow = .ok () after ->
      ∃ input, Drawn flow connection input after
  removed : forall id node after,
    (Flow.removingNode id).run flow = .ok (some node) after -> TakenOut flow id node after

theorem atomicEdits (registry : Registry) (flow : Flow) : AtomicEdits registry flow := by
  constructor
  case agrees => exact Flow.run_editing registry flow
  case connectRefused =>
    intro connection error after refused
    rw [Flow.run_connecting, attemptEnd_eq_error_iff] at refused
    exact refused.2
  case inputRefused =>
    intro id name value error after refused
    rw [Flow.run_settingInput, attemptEnd_eq_error_iff] at refused
    exact refused.2
  case nothingRemoved =>
    intro id after nothing
    rw [Flow.run_removingNode] at nothing
    exact eq_of_takingEnd_eq_none nothing
  case nothingCut =>
    intro source target input after nothing
    rw [Flow.run_disconnecting] at nothing
    exact eq_of_takingEnd_eq_none nothing
  case drawn =>
    intro connection after accepted
    rw [Flow.run_connecting, attemptEnd_eq_ok_iff] at accepted
    exact drawn_of_connect accepted
  case removed =>
    intro id node after taken
    rw [Flow.run_removingNode, takingEnd_eq_some_iff] at taken
    exact takenOut_of_removeNode? taken

/-- Publishing and unpublishing in place do what the steps of a workflow do,
and leave all of the workflow as it was where they are refused. -/
structure AtomicTransitions (registry : Registry) (now : Timestamp) (workflow : Workflow) :
    Prop where
  published : forall plan after,
    (Workflow.publishing registry now).run workflow = .ok plan after ↔
      workflow.publish registry now = .ok after ∧ after.executionPlan = some plan
  publishRefused : forall error after,
    (Workflow.publishing registry now).run workflow = .error error after ↔
      workflow.publish registry now = .error error ∧ after = workflow
  unpublished : forall after,
    (Workflow.unpublishing now).run workflow = .ok () after ↔
      workflow.unpublish now = .ok after
  unpublishRefused : forall error after,
    (Workflow.unpublishing now).run workflow = .error error after ↔
      workflow.unpublish now = .error error ∧ after = workflow

theorem atomicTransitions (registry : Registry) (now : Timestamp) (workflow : Workflow) :
    AtomicTransitions registry now workflow := by
  constructor
  case published => exact fun _ _ => Workflow.publishing_eq_ok_iff
  case publishRefused => exact fun _ _ => Workflow.publishing_eq_error_iff
  case unpublished =>
    intro after
    rw [Workflow.run_unpublishing, attemptEnd_eq_ok_iff]
  case unpublishRefused =>
    intro error after
    rw [Workflow.run_unpublishing, attemptEnd_eq_error_iff]

/-- What is refused changes nothing, and what is accepted changes no more than
it says: each program that writes into a flow or a workflow is as good as the
edit or the step that answers a new one. -/
theorem atomic_edits (registry : Registry) :
    (forall flow, AtomicEdits registry flow) ∧
      forall now workflow, AtomicTransitions registry now workflow :=
  ⟨atomicEdits registry, atomicTransitions registry⟩

def typedStep : Node := (Node.blank "step" "STEP").withInput "in" "typed"

/-- Two sources for a step whose identifier repeats. -/
def twoSourcesFlow : Flow where
  nodes := [Node.blank "first" "START", Node.blank "second" "START", typedStep, typedStep]
  edges := []
  viewport := none

def firstDrawnFlow : Flow where
  nodes :=
    [Node.blank "first" "START", Node.blank "second" "START", typedStep.withInput "in" "",
      typedStep]
  edges := [joined "first" "step" "in"]
  viewport := none

/-- The first source takes the input of the step.  The second is refused when
the guard has accepted it, and the step is as the first has left it. -/
theorem atomic_edits_twoSources :
    (∃ input, Drawn twoSourcesFlow (joined "first" "step" "in") input firstDrawnFlow) ∧
      firstDrawnFlow.validate sampleTasks (joined "second" "step" "in") = .ok () ∧
      ∃ after, (Flow.connecting sampleTasks (joined "second" "step" "in")).run firstDrawnFlow
          = .error (.targetAlreadyConnected "step" "in") after ∧
        after = firstDrawnFlow := by
  have fits : Fits sampleTasks twoSourcesFlow.nodes (joined "first" "step" "in") :=
    ⟨⟨"out", .string⟩, InputPort.needed "in" .string, connectedPorts_eq_ok_iff.mp (by rfl), rfl⟩
  have fitsToo : Fits sampleTasks firstDrawnFlow.nodes (joined "second" "step" "in") :=
    ⟨⟨"out", .string⟩, InputPort.needed "in" .string, connectedPorts_eq_ok_iff.mp (by rfl), rfl⟩
  have first : twoSourcesFlow.validate sampleTasks (joined "first" "step" "in") = .ok () :=
    validateConnection_of_end fits (by decide) (by rfl)
  have second : firstDrawnFlow.validate sampleTasks (joined "second" "step" "in") = .ok () :=
    validateConnection_of_end fitsToo (by decide) (by rfl)
  have drawing : (Flow.connecting sampleTasks (joined "first" "step" "in")).run twoSourcesFlow
      = .ok () firstDrawnFlow := by
    rw [Flow.run_connecting, Flow.connect, first]
    rfl
  have refused : (Flow.connecting sampleTasks (joined "second" "step" "in")).run firstDrawnFlow
      = .error (.targetAlreadyConnected "step" "in") firstDrawnFlow := by
    rw [Flow.run_connecting, Flow.connect, second]
    rfl
  exact ⟨((atomic_edits sampleTasks).1 twoSourcesFlow).drawn _ _ drawing, second,
    firstDrawnFlow, refused,
    ((atomic_edits sampleTasks).1 firstDrawnFlow).connectRefused _ _ _ refused⟩

end FlowPlan
