import FlowPlan.Edge

namespace FlowPlan

/-!
The dependency graph of a document: its node identifiers and the distinct
links between them, both in the order in which they were first seen.

Edges with an end outside the document leave no link, and parallel edges leave
one.  A node that is connected to itself is its own neighbour on both sides.
-/

structure DependencyGraph where
  ids : List NodeId
  links : List (NodeId × NodeId)
  closed : forall link, link ∈ links -> link.1 ∈ ids ∧ link.2 ∈ ids

namespace DependencyGraph

def empty : DependencyGraph := ⟨[], [], by simp⟩

def addNode (graph : DependencyGraph) (id : NodeId) : DependencyGraph :=
  if id ∈ graph.ids then graph
  else
    { ids := graph.ids ++ [id]
      links := graph.links
      closed := fun link member =>
        (graph.closed link member).imp (List.mem_append_left _) (List.mem_append_left _) }

/-- Link two nodes, unless one of them is unknown or the link is there already. -/
def addLink (graph : DependencyGraph) (source target : NodeId) : DependencyGraph :=
  if known : source ∈ graph.ids ∧ target ∈ graph.ids then
    if (source, target) ∈ graph.links then graph
    else
      { ids := graph.ids
        links := graph.links ++ [(source, target)]
        closed := by
          intro link member
          rcases List.mem_append.mp member with old | new
          · exact graph.closed link old
          · rw [List.mem_singleton.mp new]
            exact known }
  else graph

/-- Add all nodes, then all edges, each in order. -/
def ofDocument (nodes : List Node) (edges : List Edge) : DependencyGraph :=
  edges.foldl (fun graph edge => graph.addLink edge.source edge.target)
    (nodes.foldl (fun graph node => graph.addNode node.id) empty)

def nodeCount (graph : DependencyGraph) : Nat := graph.ids.length

/-- The nodes with a link into `id`. -/
def incomers (graph : DependencyGraph) (id : NodeId) : List NodeId :=
  (graph.links.filter (fun link => link.2 == id)).map Prod.fst

/-- The nodes that `id` has a link to. -/
def outgoers (graph : DependencyGraph) (id : NodeId) : List NodeId :=
  (graph.links.filter (fun link => link.1 == id)).map Prod.snd

theorem mem_outgoers {graph : DependencyGraph} {source target : NodeId} :
    target ∈ graph.outgoers source ↔ (source, target) ∈ graph.links := by
  constructor
  · intro member
    rcases List.mem_map.mp member with ⟨link, selected, same⟩
    have parts := List.mem_filter.mp selected
    have shape : link = (source, target) := Prod.ext (eq_of_beq parts.2) same
    exact shape ▸ parts.1
  · intro member
    exact List.mem_map.mpr ⟨(source, target), List.mem_filter.mpr ⟨member, beq_self_eq_true _⟩, rfl⟩

theorem mem_incomers {graph : DependencyGraph} {source target : NodeId} :
    source ∈ graph.incomers target ↔ (source, target) ∈ graph.links := by
  constructor
  · intro member
    rcases List.mem_map.mp member with ⟨link, selected, same⟩
    have parts := List.mem_filter.mp selected
    have shape : link = (source, target) := Prod.ext same (eq_of_beq parts.2)
    exact shape ▸ parts.1
  · intro member
    exact List.mem_map.mpr ⟨(source, target), List.mem_filter.mpr ⟨member, beq_self_eq_true _⟩, rfl⟩

theorem outgoers_of_not_mem {graph : DependencyGraph} {id : NodeId} (unknown : id ∉ graph.ids) :
    graph.outgoers id = [] := by
  apply List.eq_nil_iff_forall_not_mem.mpr
  intro target member
  exact unknown (graph.closed _ (mem_outgoers.mp member)).1

end DependencyGraph

end FlowPlan
