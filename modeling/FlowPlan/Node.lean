import FlowPlan.Dictionary
import FlowPlan.Task.Kind

namespace FlowPlan

/-!
Nodes: the tasks drawn on a canvas, each with the literals typed into it.

The task type is kept as written, since a saved document may name a type that
no registry knows.
-/

abbrev NodeId := String

structure Node where
  id : NodeId
  taskType : String
  inputs : Dictionary String
  deriving DecidableEq

namespace Node

/-- A node nothing has been typed into yet. -/
def blank (id : NodeId) (taskType : String) : Node := ⟨id, taskType, Dictionary.empty⟩

def ofKind (id : NodeId) (kind : TaskKind) : Node := blank id kind.name

def withInput (node : Node) (name value : String) : Node :=
  { node with inputs := node.inputs.insert name value }

/-- The literal typed into an input.  An empty text counts as no literal. -/
def literal? (node : Node) (name : String) : Option String :=
  (node.inputs.get? name).filter (fun value => value != "")

@[simp] theorem id_withInput (node : Node) (name value : String) :
    (node.withInput name value).id = node.id := rfl

@[simp] theorem taskType_withInput (node : Node) (name value : String) :
    (node.withInput name value).taskType = node.taskType := rfl

theorem literal?_withInput_self (node : Node) (name value : String) :
    (node.withInput name value).literal? name = if value = "" then none else some value := by
  by_cases empty : value = "" <;> simp [literal?, withInput, empty]

theorem literal?_withInput_of_ne (node : Node) {name other : String} (value : String)
    (different : name ≠ other) :
    (node.withInput name value).literal? other = node.literal? other := by
  simp only [literal?, withInput, Dictionary.get?_insert_of_ne _ _ different]

end Node

/-- The node an identifier denotes: the first of that identifier. -/
def nodeNamed? (nodes : List Node) (id : NodeId) : Option Node :=
  nodes.find? (fun node => node.id == id)

/-- Change the node an identifier denotes, leaving later namesakes alone. -/
def updateNode (id : NodeId) (change : Node -> Node) : List Node -> List Node
  | [] => []
  | node :: rest => if node.id = id then change node :: rest else node :: updateNode id change rest

/-- Without namesakes the change reaches every node of that identifier. -/
theorem updateNode_eq_map {nodes : List Node} (distinct : (nodes.map Node.id).Nodup) (id : NodeId)
    (change : Node -> Node) :
    updateNode id change nodes
      = nodes.map (fun node => if node.id = id then change node else node) := by
  induction nodes with
  | nil => rfl
  | cons node rest ih =>
      rw [List.map_cons, List.nodup_cons] at distinct
      rw [updateNode, List.map_cons]
      by_cases found : node.id = id
      · have unchanged : rest.map (fun node => if node.id = id then change node else node)
            = rest.map (fun node => node) := by
          apply List.map_congr_left
          intro later member
          have other : later.id ≠ id := by
            intro same
            apply distinct.1
            rw [found, ← same]
            exact List.mem_map_of_mem member
          exact if_neg other
        rw [if_pos found, if_pos found, unchanged, List.map_id']
      · rw [if_neg found, if_neg found, ih distinct.2]

end FlowPlan
