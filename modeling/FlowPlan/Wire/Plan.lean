import FlowPlan.Plan
import FlowPlan.Wire.Flow

namespace FlowPlan

/-!
The JSON form of plans and of the outcome of compiling.

An error tells its kind in the field `type`, which may stand anywhere among
its fields, or first where the record is an array.
-/

namespace Phase

def toJson (phase : Phase) : Json :=
  .record [("phase", .natural phase.number), ("nodes", .array (phase.nodes.map Node.toJson))]

def ofJson? (json : Json) : Option Phase := do
  let fields <- json.fields? ["phase", "nodes"]
  let number <- fields.required? "phase" Json.natural?
  let nodes <- fields.required? "nodes" (Json.list? Node.ofJson?)
  some ⟨number, nodes⟩

end Phase

namespace Plan

def toJson (plan : Plan) : Json := .array (plan.phases.map Phase.toJson)

def ofJson? (json : Json) : Option Plan := (json.list? Phase.ofJson?).map Plan.mk

end Plan

namespace InvalidElement

def toJson (element : InvalidElement) : Json :=
  .record [("nodeId", .text element.node), ("inputs", .array (element.inputs.map .text))]

def ofJson? (json : Json) : Option InvalidElement := do
  let fields <- json.fields? ["nodeId", "inputs"]
  let node <- fields.required? "nodeId" Json.text?
  let inputs <- fields.required? "inputs" (Json.list? Json.text?)
  some ⟨node, inputs⟩

end InvalidElement

namespace PlanError

def toJson : PlanError -> Json
  | .noEntryPoint => .record [("type", .text "NO_ENTRY_POINT")]
  | .invalidInputs elements =>
      .record
        [("type", .text "INVALID_INPUTS"),
          ("invalidElements", .array (elements.map InvalidElement.toJson))]
  | .unreachableNodes ids =>
      .record
        [("type", .text "UNREACHABLE_NODES"), ("nodeIds", .array (ids.map .text))]

/-- The kind of a record and what remains of the record without it. -/
def kind? : Json -> Option (String × Json)
  | .object members => do
      let fields <- (Json.object members).fields? ["type"]
      let kind <- fields.required? "type" Json.text?
      some (kind, .object (members.filter (fun member => member.1 != some "type")))
  | .array (kind :: items) => do
      let kind <- kind.text?
      some (kind, .array items)
  | _ => none

def ofKind? (kind : String) (rest : Json) : Option PlanError :=
  if kind = "NO_ENTRY_POINT" then
    match rest with
    | .array (_ :: _) => none
    | _ => some .noEntryPoint
  else if kind = "INVALID_INPUTS" then do
    let fields <- rest.fields? ["invalidElements"]
    let elements <- fields.required? "invalidElements" (Json.list? InvalidElement.ofJson?)
    some (.invalidInputs elements)
  else if kind = "UNREACHABLE_NODES" then do
    let fields <- rest.fields? ["nodeIds"]
    let ids <- fields.required? "nodeIds" (Json.list? Json.text?)
    some (.unreachableNodes ids)
  else none

/-- Read an error that stands inside `level` arrays and objects. -/
def ofJsonAt? (level : Nat) (json : Json) : Option PlanError :=
  if json.isSound && json.depth + level ≤ Json.deepest then
    (kind? json).bind (fun parts => ofKind? parts.1 parts.2)
  else none

def ofJson? (json : Json) : Option PlanError := ofJsonAt? 0 json

end PlanError

/-- What compiling a document comes to. -/
abbrev Outcome := Except PlanError Plan

namespace Outcome

def toJson : Outcome -> Json
  | .ok plan => .record [("executionPlan", plan.toJson)]
  | .error error => .record [("error", error.toJson)]

/-- An outcome is an object with one member, whose name tells which it is. -/
def ofJson? : Json -> Option Outcome
  | .object [(some name, value)] =>
      if name = "executionPlan" then (Plan.ofJson? value).map .ok
      else if name = "error" then (PlanError.ofJsonAt? 1 value).map .error
      else none
  | _ => none

end Outcome

end FlowPlan
