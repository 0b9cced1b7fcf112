import FlowPlan.Json.Field
import FlowPlan.Task.Kind

namespace FlowPlan

/-! The JSON form of ports and task definitions. -/

namespace PortType

def toJson (portType : PortType) : Json := .text portType.name

def ofJson? (json : Json) : Option PortType := json.named? ofName?

end PortType

namespace TaskKind

def toJson (kind : TaskKind) : Json := .text kind.name

def ofJson? (json : Json) : Option TaskKind := json.named? ofName?

end TaskKind

namespace InputPort

def toJson (port : InputPort) : Json :=
  .record
    ([("name", .text port.name), ("type", port.portType.toJson), ("required", .bool port.required),
      ("hideHandle", .bool port.hideHandle)]
      ++ Json.optionalMember "helperText" (port.helperText.map .text))

def ofJson? (json : Json) : Option InputPort := do
  let fields <- json.fields? ["name", "type", "required", "hideHandle", "helperText"]
  let name <- fields.required? "name" Json.text?
  let portType <- fields.required? "type" PortType.ofJson?
  let required <- fields.required? "required" Json.bool?
  let hideHandle <- fields.defaulted? "hideHandle" false Json.bool?
  let helperText <- fields.optional? "helperText" Json.text?
  some ⟨name, portType, required, hideHandle, helperText⟩

end InputPort

namespace OutputPort

def toJson (port : OutputPort) : Json :=
  .record [("name", .text port.name), ("type", port.portType.toJson)]

def ofJson? (json : Json) : Option OutputPort := do
  let fields <- json.fields? ["name", "type"]
  let name <- fields.required? "name" Json.text?
  let portType <- fields.required? "type" PortType.ofJson?
  some ⟨name, portType⟩

end OutputPort

namespace TaskDefinition

def members (definition : TaskDefinition) : List (String × Json) :=
  [("label", .text definition.label),
    ("inputs", .array (definition.inputs.map InputPort.toJson)),
    ("outputs", .array (definition.outputs.map OutputPort.toJson)),
    ("isEntryPoint", .bool definition.isEntryPoint)]

def toJson (definition : TaskDefinition) : Json := .record definition.members

def ofJson? (json : Json) : Option TaskDefinition := do
  let fields <- json.fields? ["label", "inputs", "outputs", "isEntryPoint"]
  let label <- fields.required? "label" Json.text?
  let inputs <- fields.required? "inputs" (Json.list? InputPort.ofJson?)
  let outputs <- fields.required? "outputs" (Json.list? OutputPort.ofJson?)
  let isEntryPoint <- fields.required? "isEntryPoint" Json.bool?
  some ⟨label, inputs, outputs, isEntryPoint⟩

end TaskDefinition

end FlowPlan
