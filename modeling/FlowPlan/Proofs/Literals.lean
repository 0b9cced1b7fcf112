import FlowPlan.Flow
import FlowPlan.Proofs.Provision
import Mathlib.Data.List.Nodup

namespace FlowPlan

/-!
What typing literals does to a document.

Typing changes nothing but literals: identifiers, tasks and edges stay.  Where
no literal is emptied a node only gains by it, and whatever provided for its
inputs still does.
-/

/-! ## One literal -/

/-- Type a value into one input of the nodes of one identifier. -/
def typeInto (target : NodeId) (name value : String) (node : Node) : Node :=
  if node.id = target then node.withInput name value else node

section OneLiteral

variable {target : NodeId} {name value : String} {node : Node}

@[simp] theorem id_typeInto (target : NodeId) (name value : String) (node : Node) :
    (typeInto target name value node).id = node.id := by
  unfold typeInto
  split <;> rfl

@[simp] theorem taskType_typeInto (target : NodeId) (name value : String) (node : Node) :
    (typeInto target name value node).taskType = node.taskType := by
  unfold typeInto
  split <;> rfl

theorem typeInto_of_ne (elsewhere : node.id ≠ target) : typeInto target name value node = node :=
  if_neg elsewhere

theorem literal?_typeInto_self (here : node.id = target) :
    (typeInto target name value node).literal? name = if value = "" then none else some value := by
  rw [typeInto, if_pos here, Node.literal?_withInput_self]

theorem literal?_typeInto_of_ne {asked : String} (other : ¬ (node.id = target ∧ asked = name)) :
    (typeInto target name value node).literal? asked = node.literal? asked := by
  unfold typeInto
  split
  · rename_i here
    exact node.literal?_withInput_of_ne value (fun same => other ⟨here, same.symm⟩)
  · rfl

/-- Without namesakes, typing into a known node is typing into all of its identifier. -/
theorem Flow.setInput_eq_ok {flow : Flow} (distinct : (flow.nodes.map Node.id).Nodup)
    (known : target ∈ flow.nodes.map Node.id) :
    flow.setInput target name value
      = .ok { flow with nodes := flow.nodes.map (typeInto target name value) } := by
  have reached : updateNode target (fun node => node.withInput name value) flow.nodes
      = flow.nodes.map (typeInto target name value) := updateNode_eq_map distinct _ _
  have found : (flow.node? target).isSome := by
    rw [Flow.node?, nodeNamed?, List.find?_isSome]
    rcases List.mem_map.mp known with ⟨node, listed, same⟩
    exact ⟨node, listed, beq_iff_eq.mpr same⟩
  rcases Option.isSome_iff_exists.mp found with ⟨node, denoted⟩
  rw [Flow.setInput, denoted, reached]

end OneLiteral

/-! ## More literals -/

/-- The same node, with at least as many of its inputs typed. -/
structure MoreTyped (node other : Node) : Prop where
  id : other.id = node.id
  taskType : other.taskType = node.taskType
  literal : forall name, (node.literal? name).isSome -> (other.literal? name).isSome

theorem MoreTyped.refl (node : Node) : MoreTyped node node := ⟨rfl, rfl, fun _ typed => typed⟩

theorem MoreTyped.trans {first second third : Node} (more : MoreTyped first second)
    (again : MoreTyped second third) : MoreTyped first third where
  id := again.id.trans more.id
  taskType := again.taskType.trans more.taskType
  literal := fun name typed => again.literal name (more.literal name typed)

theorem moreTyped_typeInto {value : String} (nonempty : value ≠ "") (target : NodeId)
    (name : String) (node : Node) : MoreTyped node (typeInto target name value node) where
  id := id_typeInto target name value node
  taskType := taskType_typeInto target name value node
  literal := by
    intro asked typed
    by_cases same : node.id = target ∧ asked = name
    · rw [same.2, literal?_typeInto_self same.1, if_neg nonempty]
      rfl
    · rwa [literal?_typeInto_of_ne same]

section MoreTyped

variable {registry : Registry} {edges : List Edge} {node other : Node}

theorem Provided.moreTyped {ids : Set NodeId} {input : InputPort} (more : MoreTyped node other)
    (provided : Provided edges ids node input) : Provided edges ids other input := by
  cases provided with
  | literal value typed =>
      rcases Option.isSome_iff_exists.mp (more.literal input.name (by rw [typed]; rfl)) with
        ⟨value, typedToo⟩
      exact .literal value typedToo
  | edge edge first planned => exact .edge edge (more.id ▸ first) planned
  | optional unfed optional => exact .optional (more.id ▸ unfed) optional

theorem Complete.moreTyped {ids : Set NodeId} (more : MoreTyped node other)
    (complete : Complete registry edges ids node) : Complete registry edges ids other := by
  rcases complete with ⟨definition, known, provided⟩
  exact ⟨definition, more.taskType ▸ known,
    fun input declared => (provided input declared).moreTyped more⟩

/-- A node of a known type misses nothing once all that it missed is typed. -/
theorem missingInputs_eq_nil_of_typed {definition : TaskDefinition} {planned : List NodeId}
    (known : registry node.taskType = some definition) (more : MoreTyped node other)
    (typed : forall name, name ∈ missingInputs registry edges planned node ->
      (other.literal? name).isSome) : missingInputs registry edges planned other = [] := by
  apply (missingInputs_eq_nil_iff registry edges planned other).mpr
  refine ⟨definition, more.taskType ▸ known, fun input declared => ?_⟩
  by_cases provided : Provided edges {id | id ∈ planned} node input
  · exact provided.moreTyped more
  · have missing := (mem_missingInputs known).mpr ⟨input, declared, provided, rfl⟩
    rcases Option.isSome_iff_exists.mp (typed input.name missing) with ⟨value, here⟩
    exact .literal value here

end MoreTyped

/-! ## A list of literals -/

/-- A value to be typed into an input of a node. -/
structure Filling where
  node : NodeId
  input : String
  value : String

/-- Type one value after the other. -/
def Flow.fill (flow : Flow) (fillings : List Filling) : Except EditError Flow :=
  fillings.foldlM
    (fun flow filling => flow.setInput filling.node filling.input filling.value) flow

/-- What the fillings make of a single node. -/
def fillNode (fillings : List Filling) (node : Node) : Node :=
  fillings.foldl (fun node filling => typeInto filling.node filling.input filling.value node) node

theorem fillNode_cons (filling : Filling) (rest : List Filling) (node : Node) :
    fillNode (filling :: rest) node
      = fillNode rest (typeInto filling.node filling.input filling.value node) := rfl

/-- Fillings of other nodes pass a node by. -/
theorem fillNode_of_ne {fillings : List Filling} {node : Node}
    (elsewhere : forall filling, filling ∈ fillings -> filling.node ≠ node.id) :
    fillNode fillings node = node := by
  induction fillings with
  | nil => rfl
  | cons filling rest ih =>
      rw [fillNode_cons, typeInto_of_ne (elsewhere filling List.mem_cons_self).symm]
      exact ih (fun later member => elsewhere later (List.mem_cons_of_mem _ member))

theorem moreTyped_fillNode {fillings : List Filling}
    (nonempty : forall filling, filling ∈ fillings -> filling.value ≠ "") (node : Node) :
    MoreTyped node (fillNode fillings node) := by
  induction fillings generalizing node with
  | nil => exact MoreTyped.refl node
  | cons filling rest ih =>
      have first := moreTyped_typeInto (nonempty filling List.mem_cons_self) filling.node
        filling.input node
      exact first.trans (ih (fun later member => nonempty later (List.mem_cons_of_mem _ member)) _)

/-- An input that is filled has a literal afterwards, whatever is typed before or after. -/
theorem isSome_literal?_fillNode {fillings : List Filling}
    (nonempty : forall filling, filling ∈ fillings -> filling.value ≠ "") {node : Node}
    {filling : Filling} (member : filling ∈ fillings) (here : filling.node = node.id) :
    ((fillNode fillings node).literal? filling.input).isSome := by
  induction fillings generalizing node with
  | nil => cases member
  | cons first rest ih =>
      have others : forall later, later ∈ rest -> later.value ≠ "" :=
        fun later among => nonempty later (List.mem_cons_of_mem _ among)
      rw [fillNode_cons]
      rcases List.mem_cons.mp member with rfl | later
      · apply (moreTyped_fillNode others _).literal
        rw [literal?_typeInto_self here.symm, if_neg (nonempty filling List.mem_cons_self)]
        rfl
      · exact ih others later (by rw [here, id_typeInto])

/-- Fillings of known nodes are all accepted. -/
theorem Flow.fill_eq_ok {flow : Flow} (distinct : (flow.nodes.map Node.id).Nodup)
    {fillings : List Filling}
    (known : forall filling, filling ∈ fillings -> filling.node ∈ flow.nodes.map Node.id) :
    flow.fill fillings = .ok { flow with nodes := flow.nodes.map (fillNode fillings) } := by
  induction fillings generalizing flow with
  | nil =>
      have same : flow.nodes.map (fillNode []) = flow.nodes := List.map_id' _
      rw [same]
      rfl
  | cons filling rest ih =>
      have first : flow.setInput filling.node filling.input filling.value = .ok { flow with
          nodes := flow.nodes.map (typeInto filling.node filling.input filling.value) } :=
        Flow.setInput_eq_ok distinct (known filling List.mem_cons_self)
      have sameIds : (flow.nodes.map (typeInto filling.node filling.input filling.value)).map
          Node.id = flow.nodes.map Node.id := by
        simp [Function.comp_def]
      have later : Flow.fill { flow with
            nodes := flow.nodes.map (typeInto filling.node filling.input filling.value) } rest
          = .ok { flow with
              nodes := (flow.nodes.map (typeInto filling.node filling.input filling.value)).map
                (fillNode rest) } := by
        apply ih
        · rwa [sameIds]
        · intro later member
          rw [sameIds]
          exact known later (List.mem_cons_of_mem _ member)
      rw [Flow.fill, List.foldlM_cons, first]
      refine later.trans ?_
      rw [List.map_map]
      rfl

end FlowPlan
