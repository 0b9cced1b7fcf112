import FlowPlan.Proofs.GraphLibrary
import Mathlib.Data.Finset.Card

namespace FlowPlan

/-!
The neighbours of a node, read off the edges of a document.

The graph is built link by link and keeps one list of links for both
directions.  Its neighbours are nevertheless what a filter of the edges gives:
the far ends of the inner edges at a node, each where it first occurs.  So
parallel and dangling edges, and edges that go back, do not disturb the order
on either side.  Over a library of graphs the same holds of the view.
-/

section Listing

variable (nodes : List Node) (edges : List Edge)

/-- Where the inner edges into a node come from, in the order of the first
edge from each source. -/
def sourcesInto (id : NodeId) : List NodeId :=
  (((innerEdges nodes edges).filter (fun edge => edge.target == id)).map Edge.source).eraseDups

/-- Where the inner edges out of a node lead, in the order of the first edge to
each target. -/
def targetsOf (id : NodeId) : List NodeId :=
  (((innerEdges nodes edges).filter (fun edge => edge.source == id)).map Edge.target).eraseDups

/-- What a graph has to answer about the document with these nodes and edges:
`into` and `outOf` are its lists of neighbours, `size` is its number of nodes. -/
structure Pictures (into outOf : NodeId -> List NodeId) (size : Nat) : Prop where
  incomers (id : NodeId) : into id = sourcesInto nodes edges id
  outgoers (id : NodeId) : outOf id = targetsOf nodes edges id
  stranger (id : NodeId) : id ∉ nodes.map Node.id -> into id = [] ∧ outOf id = []
  converse (source target : NodeId) : target ∈ outOf source ↔ source ∈ into target
  loop (edge : Edge) : edge ∈ edges -> edge.source = edge.target ->
    edge.source ∈ nodes.map Node.id ->
      (into edge.source).count edge.source = 1 ∧ (outOf edge.source).count edge.source = 1
  nodeCount : size = (nodes.map Node.id).toFinset.card

end Listing

namespace DependencyGraph

/-- The links at a node lead to the far ends of its inner edges.  The two ends
make up the link, so a far end is repeated exactly where its link is. -/
theorem neighbours_ofDocument (nodes : List Node) (edges : List Edge) (direction : Direction)
    (id : NodeId) :
    (ofDocument nodes edges).neighbours direction id
      = (((innerEdges nodes edges).filter (fun edge => direction.near edge.ends == id)).map
          (fun edge => direction.far edge.ends)).eraseDups := by
  have apart : forall link,
      link ∈ ((innerEdges nodes edges).map Edge.ends).filter
          (fun link => direction.near link == id) ->
        forall other,
          other ∈ ((innerEdges nodes edges).map Edge.ends).filter
              (fun link => direction.near link == id) ->
            direction.far link = direction.far other -> link = other := by
    intro link member other otherMember same
    exact direction.eq_of_far_eq (List.mem_filter.mp member).2 (List.mem_filter.mp otherMember).2
      same
  rw [neighbours, links_ofDocument, ← eraseDups_filter, ← eraseDups_map apart, List.filter_map,
    List.map_map]
  rfl

theorem pictures (nodes : List Node) (edges : List Edge) :
    Pictures nodes edges (ofDocument nodes edges).incomers (ofDocument nodes edges).outgoers
      (ofDocument nodes edges).nodeCount := by
  constructor
  case incomers => exact neighbours_ofDocument nodes edges .incoming
  case outgoers => exact neighbours_ofDocument nodes edges .outgoing
  case stranger =>
    intro id stranger
    have unknown : id ∉ (ofDocument nodes edges).ids := mt mem_ids_ofDocument.mp stranger
    exact ⟨neighbours_of_not_mem unknown .incoming, neighbours_of_not_mem unknown .outgoing⟩
  case converse => exact fun source target => mem_outgoers.trans mem_incomers.symm
  case loop =>
    intro edge member back known
    have linked : (edge.source, edge.source) ∈ (ofDocument nodes edges).links :=
      mem_links_ofDocument.mpr ⟨⟨edge, member, rfl, back.symm⟩, known, known⟩
    constructor
    · exact List.count_eq_one_of_mem (nodup_neighbours_ofDocument nodes edges .incoming _)
        (mem_incomers.mpr linked)
    · exact List.count_eq_one_of_mem (nodup_neighbours_ofDocument nodes edges .outgoing _)
        (mem_outgoers.mpr linked)
  case nodeCount =>
    rw [nodeCount_ofDocument, ← List.toFinset_card_of_nodup (nodup_eraseDups _)]
    congr 1
    ext id
    rw [List.mem_toFinset, List.mem_toFinset, List.mem_eraseDups]

end DependencyGraph

/-- The graph of a document pictures it, and so does the view of the document
over any library that keeps to the laws. -/
theorem pictures_ofDocument (nodes : List Node) (edges : List Edge) (library : GraphLibrary)
    (laws : library.Laws) :
    Pictures nodes edges (DependencyGraph.ofDocument nodes edges).incomers
        (DependencyGraph.ofDocument nodes edges).outgoers
        (DependencyGraph.ofDocument nodes edges).nodeCount ∧
      Pictures nodes edges ((library.view nodes edges).neighbours .incoming)
        ((library.view nodes edges).neighbours .outgoing)
        (library.view nodes edges).nodeCount := by
  have own := DependencyGraph.pictures nodes edges
  have neighbours : (library.view nodes edges).neighbours
      = (DependencyGraph.ofDocument nodes edges).neighbours := by
    funext direction id
    exact GraphLibrary.neighbours_view laws nodes edges direction id
  refine ⟨own, ?_⟩
  rw [neighbours, GraphLibrary.nodeCount_view laws]
  exact own

/-- With entries shared by both sides: of these edges the second goes back, the
third is dangling, the fourth is a loop and the last is parallel to the first. -/
theorem pictures_ofDocument_marked :
    GraphLibrary.marked.Laws ∧
    (GraphLibrary.marked.view [Node.blank "a" "STEP", Node.blank "b" "STEP"]
        [Edge.between "b" "a", Edge.between "a" "b", Edge.between "gone" "a",
          Edge.between "a" "a", Edge.between "b" "a"]).neighbours .incoming "a" = ["b", "a"] := by
  have pictures := pictures_ofDocument [Node.blank "a" "STEP", Node.blank "b" "STEP"]
    [Edge.between "b" "a", Edge.between "a" "b", Edge.between "gone" "a", Edge.between "a" "a",
      Edge.between "b" "a"] GraphLibrary.marked GraphLibrary.laws_marked
  refine ⟨GraphLibrary.laws_marked, ?_⟩
  rw [pictures.2.incomers]
  decide

end FlowPlan
