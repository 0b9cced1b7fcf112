import FlowPlan.Wire.Plan
import FlowPlan.Workflow

namespace FlowPlan

/-! The JSON form of saved workflows. -/

namespace WorkflowId

/-- In a document an identifier stands without its mark. -/
def toJson (id : WorkflowId) : Json := .text id.text

def ofJson? (json : Json) : Option WorkflowId :=
  json.text?.bind (fun text => (ofText text).toOption)

end WorkflowId

namespace Timestamp

def toJson (time : Timestamp) : Json := .text time.text

def ofJson? (json : Json) : Option Timestamp := json.text?.bind ofText?

end Timestamp

namespace WorkflowStatus

def toJson (status : WorkflowStatus) : Json := .text status.name

def ofJson? (json : Json) : Option WorkflowStatus := json.named? ofName?

end WorkflowStatus

namespace Workflow

def fieldNames : List String :=
  ["id", "name", "description", "status", "definition", "executionPlan", "createdAt", "updatedAt"]

def toJson (workflow : Workflow) : Json :=
  .record
    ([("id", workflow.id.toJson), ("name", .text workflow.name)]
      ++ Json.optionalMember "description" (workflow.description.map .text)
      ++ [("status", workflow.status.toJson), ("definition", workflow.definition.toJson)]
      ++ Json.optionalMember "executionPlan" (workflow.executionPlan.map Plan.toJson)
      ++ [("createdAt", workflow.createdAt.toJson), ("updatedAt", workflow.updatedAt.toJson)])

def ofJson? (json : Json) : Option Workflow := do
  let fields <- json.fields? fieldNames
  let id <- fields.required? "id" WorkflowId.ofJson?
  let name <- fields.required? "name" Json.text?
  let description <- fields.optional? "description" Json.text?
  let status <- fields.defaulted? "status" .draft WorkflowStatus.ofJson?
  let definition <- fields.defaulted? "definition" Flow.empty Flow.ofJson?
  let executionPlan <- fields.optional? "executionPlan" Plan.ofJson?
  let createdAt <- fields.required? "createdAt" Timestamp.ofJson?
  let updatedAt <- fields.required? "updatedAt" Timestamp.ofJson?
  some ⟨id, name, description, status, definition, executionPlan, createdAt, updatedAt⟩

end Workflow

end FlowPlan
