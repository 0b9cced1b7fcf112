import FlowPlan.Proofs.FixedDigits
import FlowPlan.Wire.Workflow

namespace FlowPlan

/-!
Saved workflows.

A workflow is loaded as it was saved.  What it may not hold for this is what
its JSON form cannot carry: a year outside four digits, a viewport number that
is not finite, or a phase number beyond 64 bits.
-/

/-! ## Flows -/

/-- The three numbers of the viewport are numbers of JSON. -/
structure Viewport.IsFinite (viewport : Viewport) : Prop where
  x : viewport.x.isFinite = true
  y : viewport.y.isFinite = true
  zoom : viewport.zoom.isFinite = true

theorem Viewport.ofJson?_toJson {viewport : Viewport} (finite : viewport.IsFinite) :
    ofJson? viewport.toJson = some viewport := by
  simp [ofJson?, toJson, Json.fields?_record, Json.Fields.required?, Json.float, Json.float?,
    finite.x, finite.y, finite.zoom]

namespace Flow

theorem exists_fields_toJson (flow : Flow) :
    ∃ fields, flow.toJson.fields? ["nodes", "edges", "viewport"] = some fields ∧
      fields "nodes" = some (.array (flow.nodes.map Node.toJson)) ∧
      fields "edges" = some (.array (flow.edges.map Edge.toJson)) ∧
      fields "viewport" = flow.viewport.map Viewport.toJson := by
  rcases flow with ⟨nodes, edges, viewport⟩
  cases viewport <;> simp [toJson, Json.fields?_record, Json.optionalMember]

theorem ofJson?_toJson {flow : Flow}
    (finite : forall viewport, flow.viewport = some viewport -> viewport.IsFinite) :
    ofJson? flow.toJson = some flow := by
  rcases flow.exists_fields_toJson with ⟨fields, found, nodes, edges, viewport⟩
  have readNodes := Json.list?_array (fun node (_ : node ∈ flow.nodes) => node.ofJson?_toJson)
  have readEdges := Json.list?_array (fun edge (_ : edge ∈ flow.edges) => edge.ofJson?_toJson)
  have readViewport := Json.Fields.optional?_map viewport (fun _ => nofun)
    (fun viewport held => Viewport.ofJson?_toJson (finite viewport held))
  simp [ofJson?, found, Json.Fields.defaulted?, nodes, readNodes, edges, readEdges, readViewport]

end Flow

/-! ## Workflows -/

theorem WorkflowId.ofJson?_toJson (id : WorkflowId) : ofJson? id.toJson = some id := by
  rw [ofJson?, toJson, Json.text?_text, Option.bind_some, ofText_text]
  rfl

theorem Timestamp.ofJson?_toJson {time : Timestamp} (dated : time.IsDated) :
    ofJson? time.toJson = some time := by
  rw [ofJson?, toJson, Json.text?_text, Option.bind_some, ofText?_text dated]

theorem WorkflowStatus.ofJson?_toJson (status : WorkflowStatus) :
    ofJson? status.toJson = some status := by
  cases status <;> decide

namespace Workflow

/-- The workflow holds only what its JSON form can carry. -/
structure Saveable (workflow : Workflow) : Prop where
  created : workflow.createdAt.IsDated
  updated : workflow.updatedAt.IsDated
  view : forall viewport, workflow.definition.viewport = some viewport -> viewport.IsFinite
  plan : forall plan, workflow.executionPlan = some plan -> plan.Numbered

/-- The fields of a saved workflow.  What is absent is not written. -/
structure Written (workflow : Workflow) (fields : Json.Fields) : Prop where
  id : fields "id" = some (.text workflow.id.text)
  name : fields "name" = some (.text workflow.name)
  description : fields "description" = workflow.description.map .text
  status : fields "status" = some workflow.status.toJson
  definition : fields "definition" = some workflow.definition.toJson
  executionPlan : fields "executionPlan" = workflow.executionPlan.map Plan.toJson
  createdAt : fields "createdAt" = some workflow.createdAt.toJson
  updatedAt : fields "updatedAt" = some workflow.updatedAt.toJson

theorem exists_written (workflow : Workflow) :
    ∃ fields, workflow.toJson.fields? fieldNames = some fields ∧ workflow.Written fields := by
  rcases workflow with ⟨id, name, description, status, definition, executionPlan, _, _⟩
  refine ⟨_, Json.fields?_record ?distinct fieldNames, ?written⟩
  case distinct =>
    cases description <;> cases executionPlan <;> simp [Json.optionalMember]
  case written =>
    constructor <;> cases description <;> cases executionPlan <;>
      simp [Json.optionalMember, WorkflowId.toJson]

theorem ofJson?_toJson {workflow : Workflow} (saveable : workflow.Saveable) :
    ofJson? workflow.toJson = some workflow := by
  rcases workflow.exists_written with ⟨fields, found, written⟩
  have id := workflow.id.ofJson?_toJson
  have status := workflow.status.ofJson?_toJson
  have definition := Flow.ofJson?_toJson saveable.view
  have createdAt := Timestamp.ofJson?_toJson saveable.created
  have updatedAt := Timestamp.ofJson?_toJson saveable.updated
  have description := Json.Fields.optional?_map written.description
    (fun _ => Json.text_ne_null _) (fun content _ => Json.text?_text content)
  have executionPlan := Json.Fields.optional?_map written.executionPlan (fun _ => nofun)
    (fun plan held => Plan.ofJson?_toJson (saveable.plan plan held))
  rw [WorkflowId.toJson] at id
  simp [ofJson?, found, Json.Fields.required?, Json.Fields.defaulted?, written.id, id, written.name,
    description, written.status, status, written.definition, definition, executionPlan,
    written.createdAt, createdAt, written.updatedAt, updatedAt]

/-- Loading undoes saving.  The identifier is saved as bare digits, and what
is loaded lives on like what was saved. -/
structure Survives (workflow : Workflow) : Prop where
  loaded : ofJson? workflow.toJson = some workflow
  written : ∃ fields, workflow.toJson.fields? fieldNames = some fields ∧ workflow.Written fields
  identifier : workflow.id.text.toList.length = WorkflowId.width ∧
    forall char, char ∈ workflow.id.text.toList -> char ∈ WorkflowId.alphabet
  life : forall other, ofJson? workflow.toJson = some other -> forall registry now,
    other.publish registry now = workflow.publish registry now ∧
      other.unpublish now = workflow.unpublish now ∧
      other.definition.compile registry = workflow.definition.compile registry

end Workflow

theorem survives_of_saveable {workflow : Workflow} (saveable : workflow.Saveable) :
    workflow.Survives := by
  have loaded := Workflow.ofJson?_toJson saveable
  constructor
  case loaded => exact loaded
  case written => exact workflow.exists_written
  case identifier =>
    exact ⟨workflow.id.length_text, fun _ member => workflow.id.mem_alphabet_of_mem_text member⟩
  case life =>
    intro other otherLoaded registry now
    rw [Option.some.inj (otherLoaded.symm.trans loaded)]
    exact ⟨rfl, rfl, rfl⟩

/-- A workflow with every identifier bit set, an empty description, an edge
without handles beside one with an empty handle, and the last phase number. -/
def brimmingWorkflow : Workflow where
  id := ⟨BitVec.allOnes 128⟩
  name := "\"daily\" run"
  description := some ""
  status := .published
  definition :=
    ⟨[(Node.blank "open" "LAUNCH_BROWSER").withInput "Website URL" ""],
      [Edge.between "open" "absent", ⟨"open", "open", some "", none⟩],
      some ⟨-0.5, 0.0, 1.25⟩⟩
  executionPlan := some ⟨[⟨Word.unsignedCount - 1, [Node.blank "open" "LAUNCH_BROWSER"]⟩]⟩
  createdAt :=
    { Timestamp.epoch with
      hour := 23
      nanosecond := 120000000
      hour_valid := by decide
      nanosecond_valid := by decide }
  updatedAt :=
    { Timestamp.epoch with
      date := Date.lastOf 9999 12 Calendar.december_valid
      nanosecond := 7
      nanosecond_valid := by decide }

theorem survives_brimming :
    brimmingWorkflow.Saveable ∧
      Workflow.ofJson? brimmingWorkflow.toJson = some brimmingWorkflow ∧
      brimmingWorkflow.id.text = "7ZZZZZZZZZZZZZZZZZZZZZZZZZ" := by
  have saveable : brimmingWorkflow.Saveable := by
    constructor
    case created => exact ⟨by decide, by decide⟩
    case updated => exact ⟨by decide, by decide⟩
    case view =>
      rintro viewport ⟨⟩
      exact ⟨by decide, by decide, by decide⟩
    case plan =>
      rintro plan ⟨⟩ phase member
      rw [List.mem_singleton.mp member]
      decide
  exact ⟨saveable, (survives_of_saveable saveable).loaded, by decide⟩

end FlowPlan
