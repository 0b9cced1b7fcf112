namespace FlowPlan

/-!
Ports: the named, typed places where values enter and leave a task.

An input may be filled by a literal typed into the node or by an edge from
another node.  Inputs with a hidden handle take literals only.
-/

inductive PortType where
  | string
  | browserInstance
  | select
  | credential
  deriving DecidableEq, Repr

namespace PortType

def name : PortType -> String
  | .string => "STRING"
  | .browserInstance => "BROWSER_INSTANCE"
  | .select => "SELECT"
  | .credential => "CREDENTIAL"

def all : List PortType := [.string, .browserInstance, .select, .credential]

def ofName? (text : String) : Option PortType :=
  all.find? (fun portType => portType.name == text)

theorem mem_all (portType : PortType) : portType ∈ all := by
  cases portType <;> decide

theorem ofName?_name (portType : PortType) : ofName? portType.name = some portType := by
  cases portType <;> decide

end PortType

structure InputPort where
  name : String
  portType : PortType
  required : Bool
  hideHandle : Bool
  helperText : Option String
  deriving DecidableEq, Repr

namespace InputPort

def needed (name : String) (portType : PortType) : InputPort :=
  ⟨name, portType, true, false, none⟩

def optional (name : String) (portType : PortType) : InputPort :=
  ⟨name, portType, false, false, none⟩

def hidden (port : InputPort) : InputPort := { port with hideHandle := true }

def withHelp (port : InputPort) (text : String) : InputPort :=
  { port with helperText := some text }

/-- An edge may end here exactly when the handle is shown. -/
def isConnectable (port : InputPort) : Bool := !port.hideHandle

end InputPort

structure OutputPort where
  name : String
  portType : PortType
  deriving DecidableEq, Repr

end FlowPlan
