import FlowPlan.Proofs.Links

namespace FlowPlan

/-!
The dependency view over any library of graphs.

`DependencyGraph` keeps its links in one list.  A library keeps them in a way of
its own, and the view asks little of it: a node or a link is added where it is
not there yet, and neighbours are listed in the order in which their links
came.  Over every such library the view of a document answers as
`DependencyGraph` does, which is shown by adding the nodes and edges to both
side by side.
-/

/-! ## Adding what is new -/

section New

variable {Value : Type} [BEq Value] [LawfulBEq Value]

/-- The values with one more at the end, unless it is among them. -/
def insertNew (values : List Value) (value : Value) : List Value :=
  if value ∈ values then values else values ++ [value]

theorem insertNew_of_mem {values : List Value} {value : Value} (old : value ∈ values) :
    insertNew values value = values := if_pos old

theorem mem_insertNew {values : List Value} {value other : Value} :
    other ∈ insertNew values value ↔ other ∈ values ∨ other = value := by
  rw [insertNew]
  split
  · rename_i old
    exact (or_iff_left_of_imp (fun same => same ▸ old)).symm
  · rw [List.mem_append, List.mem_singleton]

theorem length_insertNew (values : List Value) (value : Value) :
    (insertNew values value).length
      = if value ∈ values then values.length else values.length + 1 := by
  rw [insertNew]
  split
  · rfl
  · rw [List.length_append, List.length_singleton]

end New

/-! ## A link more -/

namespace DependencyGraph

theorem links_addLink_of_known (graph : DependencyGraph) {link : NodeId × NodeId}
    (known : link.1 ∈ graph.ids ∧ link.2 ∈ graph.ids) :
    (graph.addLink link.1 link.2).links = insertNew graph.links link := by
  rw [links_addLink, insertNew]
  by_cases old : link ∈ graph.links
  · rw [if_neg (fun added => added.2 old), if_pos old]
  · rw [if_pos ⟨known, old⟩, if_neg old]

theorem neighbours_addLink (graph : DependencyGraph) {link : NodeId × NodeId}
    (known : link.1 ∈ graph.ids ∧ link.2 ∈ graph.ids) (direction : Direction) (id : NodeId) :
    (graph.addLink link.1 link.2).neighbours direction id
      = if link ∉ graph.links ∧ direction.near link = id then
          graph.neighbours direction id ++ [direction.far link]
        else graph.neighbours direction id := by
  rw [neighbours, graph.links_addLink_of_known known, insertNew]
  by_cases old : link ∈ graph.links
  · rw [if_pos old, if_neg (fun added => added.1 old), neighbours]
  · rw [if_neg old, List.filter_append, List.map_append, List.filter_singleton]
    by_cases here : direction.near link = id
    · rw [if_pos ⟨old, here⟩, beq_iff_eq.mpr here, neighbours]
      rfl
    · rw [if_neg (fun added => here added.2), beq_eq_false_iff_ne.mpr here, neighbours]
      exact List.append_nil _

end DependencyGraph

/-! ## Libraries -/

/-- What the view uses of a library of directed graphs. -/
structure GraphLibrary where
  Graph : Type
  empty : Graph
  addNode : Graph -> NodeId -> Graph
  addEdge : Graph -> NodeId × NodeId -> Graph
  hasNode : Graph -> NodeId -> Bool
  hasEdge : Graph -> NodeId × NodeId -> Bool
  neighbours : Graph -> Direction -> NodeId -> List NodeId
  nodeCount : Graph -> Nat

namespace GraphLibrary

/-- Adding again changes nothing, and what is added comes last.  Of an edge this
is asked only where its ends have been added. -/
structure Laws (library : GraphLibrary) : Prop where
  hasNode_empty (id : NodeId) : library.hasNode library.empty id = false
  hasNode_addNode (graph : library.Graph) (added id : NodeId) :
    library.hasNode (library.addNode graph added) id = (library.hasNode graph id || id == added)
  hasNode_addEdge (graph : library.Graph) (link : NodeId × NodeId) (id : NodeId) :
    library.hasNode graph link.1 = true -> library.hasNode graph link.2 = true ->
      library.hasNode (library.addEdge graph link) id = library.hasNode graph id
  hasEdge_empty (link : NodeId × NodeId) : library.hasEdge library.empty link = false
  hasEdge_addNode (graph : library.Graph) (added : NodeId) (link : NodeId × NodeId) :
    library.hasEdge (library.addNode graph added) link = library.hasEdge graph link
  hasEdge_addEdge (graph : library.Graph) (added link : NodeId × NodeId) :
    library.hasEdge (library.addEdge graph added) link
      = (library.hasEdge graph link || link == added)
  neighbours_empty (direction : Direction) (id : NodeId) :
    library.neighbours library.empty direction id = []
  neighbours_addNode (graph : library.Graph) (added : NodeId) (direction : Direction)
    (id : NodeId) :
    library.neighbours (library.addNode graph added) direction id
      = library.neighbours graph direction id
  neighbours_addEdge (graph : library.Graph) (link : NodeId × NodeId) (direction : Direction)
    (id : NodeId) :
    library.neighbours (library.addEdge graph link) direction id
      = if library.hasEdge graph link = false ∧ direction.near link = id then
          library.neighbours graph direction id ++ [direction.far link]
        else library.neighbours graph direction id
  nodeCount_empty : library.nodeCount library.empty = 0
  nodeCount_addNode (graph : library.Graph) (added : NodeId) :
    library.nodeCount (library.addNode graph added)
      = if library.hasNode graph added = true then library.nodeCount graph
        else library.nodeCount graph + 1
  nodeCount_addEdge (graph : library.Graph) (link : NodeId × NodeId) :
    library.hasNode graph link.1 = true -> library.hasNode graph link.2 = true ->
      library.nodeCount (library.addEdge graph link) = library.nodeCount graph

/-- A graph of the library, kept with the identifiers of the nodes. -/
structure View (library : GraphLibrary) where
  graph : library.Graph
  ids : List NodeId

variable (library : GraphLibrary)

def withNodes (nodes : List Node) : library.Graph :=
  nodes.foldl (fun graph node => library.addNode graph node.id) library.empty

/-- Add an edge if both its ends are among the identifiers. -/
def join (ids : List NodeId) (graph : library.Graph) (edge : Edge) : library.Graph :=
  if edge.source ∈ ids ∧ edge.target ∈ ids then library.addEdge graph edge.ends else graph

/-- The view of a document: all nodes are added, then the edges between them. -/
def view (nodes : List Node) (edges : List Edge) : library.View :=
  ⟨edges.foldl (library.join (nodes.map Node.id)) (library.withNodes nodes), nodes.map Node.id⟩

namespace View

variable {library : GraphLibrary}

/-- The library is asked about nodes of the document only. -/
def neighbours (view : library.View) (direction : Direction) (id : NodeId) : List NodeId :=
  if id ∈ view.ids then library.neighbours view.graph direction id else []

def nodeCount (view : library.View) : Nat := library.nodeCount view.graph

end View

/-! ## Both side by side -/

/-- A graph of the library answers as this one. -/
structure Agrees (graph : library.Graph) (linked : DependencyGraph) : Prop where
  hasNode (id : NodeId) : library.hasNode graph id = true ↔ id ∈ linked.ids
  hasEdge (link : NodeId × NodeId) : library.hasEdge graph link = true ↔ link ∈ linked.links
  neighbours (direction : Direction) (id : NodeId) :
    library.neighbours graph direction id = linked.neighbours direction id
  nodeCount : library.nodeCount graph = linked.nodeCount

section Lawful

variable {library} (laws : library.Laws) {graph : library.Graph} {linked : DependencyGraph}

include laws

theorem agrees_empty : library.Agrees library.empty DependencyGraph.empty where
  hasNode id := by simp [laws.hasNode_empty, DependencyGraph.empty]
  hasEdge link := by simp [laws.hasEdge_empty, DependencyGraph.empty]
  neighbours direction id := laws.neighbours_empty direction id
  nodeCount := laws.nodeCount_empty

theorem Agrees.addNode (agrees : library.Agrees graph linked) (added : NodeId) :
    library.Agrees (library.addNode graph added) (linked.addNode added) := by
  have inserted : (linked.addNode added).ids = insertNew linked.ids added :=
    linked.ids_addNode added
  have same := linked.links_addNode added
  constructor
  case hasNode =>
    intro id
    rw [laws.hasNode_addNode, Bool.or_eq_true, agrees.hasNode, beq_iff_eq, inserted, mem_insertNew]
  case hasEdge =>
    intro link
    rw [laws.hasEdge_addNode, agrees.hasEdge, same]
  case neighbours =>
    intro direction id
    rw [laws.neighbours_addNode, agrees.neighbours, DependencyGraph.neighbours, ← same]
    rfl
  case nodeCount =>
    rw [laws.nodeCount_addNode, agrees.nodeCount, DependencyGraph.nodeCount,
      DependencyGraph.nodeCount, inserted, length_insertNew]
    simp only [agrees.hasNode]

theorem Agrees.addEdge (agrees : library.Agrees graph linked) {link : NodeId × NodeId}
    (known : link.1 ∈ linked.ids ∧ link.2 ∈ linked.ids) :
    library.Agrees (library.addEdge graph link) (linked.addLink link.1 link.2) := by
  have source := (agrees.hasNode link.1).mpr known.1
  have target := (agrees.hasNode link.2).mpr known.2
  have fresh : library.hasEdge graph link = false ↔ link ∉ linked.links := by
    rw [← agrees.hasEdge, Bool.not_eq_true]
  constructor
  case hasNode =>
    intro id
    rw [laws.hasNode_addEdge graph link id source target, agrees.hasNode,
      DependencyGraph.ids_addLink]
  case hasEdge =>
    intro other
    rw [laws.hasEdge_addEdge, Bool.or_eq_true, agrees.hasEdge, beq_iff_eq,
      linked.links_addLink_of_known known, mem_insertNew]
  case neighbours =>
    intro direction id
    rw [laws.neighbours_addEdge, agrees.neighbours, linked.neighbours_addLink known]
    simp only [fresh]
  case nodeCount =>
    rw [laws.nodeCount_addEdge graph link source target, agrees.nodeCount,
      DependencyGraph.nodeCount, DependencyGraph.nodeCount, DependencyGraph.ids_addLink]

theorem agrees_withNodes (nodes : List Node) :
    library.Agrees (library.withNodes nodes) (DependencyGraph.ofNodes nodes) := by
  induction nodes using List.reverseRecOn with
  | nil => exact agrees_empty laws
  | append_singleton nodes node ih =>
      rw [withNodes, List.foldl_append, DependencyGraph.ofNodes, List.foldl_append]
      exact Agrees.addNode laws ih node.id

theorem agrees_view (nodes : List Node) (edges : List Edge) :
    library.Agrees (library.view nodes edges).graph (DependencyGraph.ofDocument nodes edges) := by
  induction edges using List.reverseRecOn with
  | nil => exact agrees_withNodes laws nodes
  | append_singleton edges edge ih =>
      have step : (library.view nodes (edges ++ [edge])).graph
          = library.join (nodes.map Node.id) (library.view nodes edges).graph edge := by
        rw [view, List.foldl_append]
        rfl
      rw [step, DependencyGraph.ofDocument_concat, join]
      split
      · rename_i known
        refine Agrees.addEdge laws ih ?_
        exact known.imp DependencyGraph.mem_ids_ofDocument.mpr
          DependencyGraph.mem_ids_ofDocument.mpr
      · rename_i unknown
        rw [DependencyGraph.addLink, dif_neg]
        · exact ih
        · exact fun known => unknown (known.imp DependencyGraph.mem_ids_ofDocument.mp
            DependencyGraph.mem_ids_ofDocument.mp)

theorem neighbours_view (nodes : List Node) (edges : List Edge) (direction : Direction)
    (id : NodeId) :
    (library.view nodes edges).neighbours direction id
      = (DependencyGraph.ofDocument nodes edges).neighbours direction id := by
  rw [View.neighbours]
  split
  · exact (agrees_view laws nodes edges).neighbours direction id
  · rename_i unknown
    have outside : id ∉ (DependencyGraph.ofDocument nodes edges).ids :=
      mt DependencyGraph.mem_ids_ofDocument.mp unknown
    exact (DependencyGraph.neighbours_of_not_mem outside direction).symm

theorem nodeCount_view (nodes : List Node) (edges : List Edge) :
    (library.view nodes edges).nodeCount
      = (DependencyGraph.ofDocument nodes edges).nodeCount :=
  (agrees_view laws nodes edges).nodeCount

end Lawful

/-! ## Entries shared by both sides -/

/-- Every node has one list of entries for both sides: the nodes at the other ends
of its links, each with a mark for the side. -/
structure Marked where
  nodes : List NodeId
  edges : List (NodeId × NodeId)
  entries : NodeId -> List (NodeId × Direction)

/-- The entries that a link leaves at a node.  A link from a node to itself leaves
one, not two. -/
def entriesOf (link : NodeId × NodeId) (id : NodeId) : List (NodeId × Direction) :=
  (if link.1 = id then [(link.2, Direction.outgoing)] else [])
    ++ (if link.2 = id ∧ link.1 ≠ link.2 then [(link.1, Direction.incoming)] else [])

/-- An entry counts on the side it is marked with, and an entry of the node
itself on both. -/
def counted (direction : Direction) (id : NodeId) (entries : List (NodeId × Direction)) :
    List NodeId :=
  (entries.filter (fun entry => entry.2 = direction ∨ entry.1 = id)).map Prod.fst

theorem counted_append (direction : Direction) (id : NodeId)
    (entries later : List (NodeId × Direction)) :
    counted direction id (entries ++ later)
      = counted direction id entries ++ counted direction id later := by
  rw [counted, List.filter_append, List.map_append]
  rfl

theorem counted_entriesOf (direction : Direction) (id : NodeId) (link : NodeId × NodeId) :
    counted direction id (entriesOf link id)
      = if direction.near link = id then [direction.far link] else [] := by
  rcases link with ⟨source, target⟩
  -- Where the node is both ends, its one entry has to count on either side.
  by_cases atSource : source = id <;> by_cases atTarget : target = id <;> cases direction <;>
    simp_all [counted, entriesOf, Direction.near, Direction.far]

namespace Marked

def addEdge (graph : Marked) (link : NodeId × NodeId) : Marked :=
  if graph.edges.contains link then graph
  else
    { nodes := insertNew (insertNew graph.nodes link.1) link.2
      edges := graph.edges ++ [link]
      entries := fun id => graph.entries id ++ entriesOf link id }

variable {graph : Marked} {link : NodeId × NodeId}

theorem nodes_addEdge (source : link.1 ∈ graph.nodes) (target : link.2 ∈ graph.nodes) :
    (graph.addEdge link).nodes = graph.nodes := by
  rw [addEdge]
  split
  · rfl
  · rw [insertNew_of_mem source, insertNew_of_mem target]

theorem mem_edges_addEdge {other : NodeId × NodeId} :
    other ∈ (graph.addEdge link).edges ↔ other ∈ graph.edges ∨ other = link := by
  have edges : (graph.addEdge link).edges = insertNew graph.edges link := by
    rw [addEdge]
    split
    · rename_i old
      exact (insertNew_of_mem (List.contains_iff_mem.mp old)).symm
    · rename_i fresh
      exact (if_neg (mt List.contains_iff_mem.mpr fresh)).symm
  rw [edges, mem_insertNew]

theorem counted_addEdge (direction : Direction) (id : NodeId) :
    counted direction id ((graph.addEdge link).entries id)
      = if graph.edges.contains link = false ∧ direction.near link = id then
          counted direction id (graph.entries id) ++ [direction.far link]
        else counted direction id (graph.entries id) := by
  rw [addEdge]
  split
  · rename_i old
    rw [if_neg (fun added => Bool.false_ne_true (added.1.symm.trans old))]
  · rename_i fresh
    rw [counted_append, counted_entriesOf]
    by_cases here : direction.near link = id
    · rw [if_pos here, if_pos ⟨eq_false_of_ne_true fresh, here⟩]
    · rw [if_neg here, if_neg (fun added => here added.2), List.append_nil]

end Marked

/-- The library that keeps its graphs in this form. -/
def marked : GraphLibrary where
  Graph := Marked
  empty := ⟨[], [], fun _ => []⟩
  addNode graph added := { graph with nodes := insertNew graph.nodes added }
  addEdge := Marked.addEdge
  hasNode graph id := id ∈ graph.nodes
  hasEdge graph link := graph.edges.contains link
  neighbours graph direction id := counted direction id (graph.entries id)
  nodeCount graph := graph.nodes.length

theorem laws_marked : marked.Laws where
  hasNode_empty _ := rfl
  hasNode_addNode graph added id := by
    rw [Bool.eq_iff_iff, Bool.or_eq_true, beq_iff_eq]
    simp only [marked, decide_eq_true_eq, mem_insertNew]
  hasNode_addEdge graph link id source target := by
    have kept := Marked.nodes_addEdge (of_decide_eq_true source) (of_decide_eq_true target)
    simp only [marked, kept]
  hasEdge_empty _ := rfl
  hasEdge_addNode _ _ _ := rfl
  hasEdge_addEdge graph added link := by
    rw [Bool.eq_iff_iff, Bool.or_eq_true, beq_iff_eq]
    simp only [marked, List.contains_iff_mem]
    exact Marked.mem_edges_addEdge
  neighbours_empty _ _ := rfl
  neighbours_addNode _ _ _ _ := rfl
  neighbours_addEdge _ _ direction id := Marked.counted_addEdge direction id
  nodeCount_empty := rfl
  nodeCount_addNode graph added := by
    simp only [marked, decide_eq_true_eq]
    exact length_insertNew graph.nodes added
  nodeCount_addEdge graph link source target := by
    have kept := Marked.nodes_addEdge (of_decide_eq_true source) (of_decide_eq_true target)
    simp only [marked, kept]

end GraphLibrary

end FlowPlan
