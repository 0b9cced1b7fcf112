import FlowPlan.Proofs.Advance
import FlowPlan.Proofs.Denoted

namespace FlowPlan

/-!
Which of several nodes with one identifier a plan holds.

Editing takes an identifier for the first of its nodes.  Planning looks no
identifier up.  It goes through the nodes in document order and takes the first
that qualifies: as the entry point the first whose task may begin a workflow,
and in a round the first of each unplanned identifier that misses nothing.  So
the first node of an identifier is passed over where it does not qualify yet
and one of its namesakes does.
-/

variable {registry : Registry} {nodes : List Node} {edges : List Edge} {graph : DependencyGraph}

/-! ## The first node of a round to qualify -/

section Taken

variable {entry : Node}

end Taken

/-! ## What is ready by a phase -/

/-- The phases of the plan before this one provide for the node. -/
def Plan.Readies (plan : Plan) (registry : Registry) (edges : List Edge) (number : Nat)
    (node : Node) : Prop :=
  Complete registry edges {id | ∃ earlier, plan.phaseOf? id = some earlier ∧ earlier < number} node

/-- The node is provided for by the phases before its own.  No node of its
identifier in front of it is, and no node of its identifier at all was at an
earlier phase. -/
structure FirstReady (registry : Registry) (nodes : List Node) (edges : List Edge) (plan : Plan)
    (phase : Nat) (node : Node) : Prop where
  ready : plan.Readies registry edges phase node
  first : ∃ before after, nodes = before ++ node :: after ∧
    forall earlier, earlier ∈ before -> earlier.id = node.id ->
      ¬ plan.Readies registry edges phase earlier
  soonest : forall number, 2 ≤ number -> number < phase -> forall other, other ∈ nodes ->
    other.id = node.id -> ¬ plan.Readies registry edges number other

section Agenda

variable {entry : Node}

end Agenda

/-! ## The first node of an identifier and the one that is scheduled -/

/-- How a phase of this number comes to hold this node, where the identifier
of the node denotes `first`. -/
inductive Chosen (registry : Registry) (nodes : List Node) (edges : List Edge) (plan : Plan)
    (first : Node) : Nat -> Node -> Prop
  | entry {node : Node} (found : entryPoint? registry nodes = some node)
      (denoted : first = node ↔ Begins registry first) :
      Chosen registry nodes edges plan first 1 node
  | later {number : Nat} {node : Node} (late : 2 ≤ number)
      (firstReady : FirstReady registry nodes edges plan number node)
      (denoted : first = node ↔ plan.Readies registry edges number first) :
      Chosen registry nodes edges plan first number node

/-- The first node of an identifier is in front of any other. -/
theorem FirstNamed.eq_or_mem {before after front rest : List Node} {first node : Node}
    (named : FirstNamed nodes before first after) (same : first.id = node.id)
    (split : nodes = front ++ node :: rest) : first = node ∨ first ∈ front := by
  have denoted := named.nodeNamed?
  rw [same, split, FlowPlan.nodeNamed?, List.find?_append] at denoted
  cases earlier : front.find? (fun other => other.id == node.id) with
  | none =>
      have head : (node :: rest).find? (fun other => other.id == node.id) = some node :=
        List.find?_cons_of_pos (beq_self_eq_true node.id)
      rw [earlier, Option.none_or, head] at denoted
      exact Or.inl (Option.some.inj denoted).symm
  | some other =>
      rw [earlier, Option.some_or] at denoted
      cases denoted
      exact Or.inr (List.mem_of_find?_eq_some earlier)

theorem FirstReady.chosen {plan : Plan} {number : Nat} {node first : Node}
    {before after : List Node} (firstReady : FirstReady registry nodes edges plan number node)
    (late : 2 ≤ number) (named : FirstNamed nodes before first after) (same : first.id = node.id) :
    Chosen registry nodes edges plan first number node := by
  refine .later late firstReady ⟨fun equal => equal ▸ firstReady.ready, fun ready => ?_⟩
  rcases firstReady.first with ⟨front, rest, split, unready⟩
  rcases named.eq_or_mem same split with equal | earlier
  · exact equal
  · exact absurd ready (unready first earlier same)

end FlowPlan
