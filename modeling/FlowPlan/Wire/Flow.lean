import FlowPlan.Flow
import FlowPlan.Json.Field

namespace FlowPlan

/-! The JSON form of nodes, edges and flows. -/

namespace Dictionary

/-- Literals are listed by name. -/
def toJson (literals : Dictionary String) : Json :=
  .record (literals.entries.map (fun entry => (entry.1, .text entry.2)))

/-- One literal: its name and its text. -/
def entryOfMember? (member : Option String × Json) : Option (String × String) := do
  let name <- member.1
  let value <- member.2.text?
  some (name, value)

/-- Of two literals of one name the later one holds. -/
def ofJson? : Json -> Option (Dictionary String)
  | .object members => (members.mapM entryOfMember?).map ofList
  | _ => none

end Dictionary

namespace Node

def toJson (node : Node) : Json :=
  .record [("id", .text node.id), ("taskType", .text node.taskType), ("inputs", node.inputs.toJson)]

def ofJson? (json : Json) : Option Node := do
  let fields <- json.fields? ["id", "taskType", "inputs"]
  let id <- fields.required? "id" Json.text?
  let taskType <- fields.required? "taskType" Json.text?
  let inputs <- fields.defaulted? "inputs" Dictionary.empty Dictionary.ofJson?
  some ⟨id, taskType, inputs⟩

end Node

namespace Edge

def toJson (edge : Edge) : Json :=
  .record
    ([("source", .text edge.source), ("target", .text edge.target)]
      ++ Json.optionalMember "sourceHandle" (edge.sourceHandle.map .text)
      ++ Json.optionalMember "targetHandle" (edge.targetHandle.map .text))

def ofJson? (json : Json) : Option Edge := do
  let fields <- json.fields? ["source", "target", "sourceHandle", "targetHandle"]
  let source <- fields.required? "source" Json.text?
  let target <- fields.required? "target" Json.text?
  let sourceHandle <- fields.optional? "sourceHandle" Json.text?
  let targetHandle <- fields.optional? "targetHandle" Json.text?
  some ⟨source, target, sourceHandle, targetHandle⟩

end Edge

namespace Viewport

def toJson (viewport : Viewport) : Json :=
  .record [("x", .float viewport.x), ("y", .float viewport.y), ("zoom", .float viewport.zoom)]

def ofJson? (json : Json) : Option Viewport := do
  let fields <- json.fields? ["x", "y", "zoom"]
  let x <- fields.required? "x" Json.float?
  let y <- fields.required? "y" Json.float?
  let zoom <- fields.required? "zoom" Json.float?
  some ⟨x, y, zoom⟩

end Viewport

namespace Flow

def toJson (flow : Flow) : Json :=
  .record
    ([("nodes", .array (flow.nodes.map Node.toJson)),
      ("edges", .array (flow.edges.map Edge.toJson))]
      ++ Json.optionalMember "viewport" (flow.viewport.map Viewport.toJson))

def ofJson? (json : Json) : Option Flow := do
  let fields <- json.fields? ["nodes", "edges", "viewport"]
  let nodes <- fields.defaulted? "nodes" [] (Json.list? Node.ofJson?)
  let edges <- fields.defaulted? "edges" [] (Json.list? Edge.ofJson?)
  let viewport <- fields.optional? "viewport" Viewport.ofJson?
  some ⟨nodes, edges, viewport⟩

end Flow

end FlowPlan
