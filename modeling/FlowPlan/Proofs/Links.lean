import FlowPlan.Dependency
import Mathlib.Data.List.Basic
import Mathlib.Data.List.Induction
import Mathlib.Data.List.Nodup

namespace FlowPlan

/-!
What the dependency graph of a document holds: the identifiers of its nodes,
each once, and the pairs of ends of its edges inside the document, each once,
both in the order of first appearance.  Neighbours on the two sides are one
function of the side on which they are asked for.
-/

/-! ## First occurrences -/

section FirstOccurrences

variable {Value : Type} [BEq Value] [LawfulBEq Value]

theorem eraseDups_concat_of_mem {values : List Value} {value : Value} (old : value ∈ values) :
    (values ++ [value]).eraseDups = values.eraseDups := by
  rw [List.eraseDups_append]
  simp [List.removeAll, old]

theorem eraseDups_concat_of_not_mem {values : List Value} {value : Value}
    (fresh : value ∉ values) :
    (values ++ [value]).eraseDups = values.eraseDups ++ [value] := by
  rw [List.eraseDups_append]
  simp [List.removeAll, fresh, List.eraseDups_cons]

theorem eraseDups_sublist (values : List Value) : values.eraseDups.Sublist values := by
  induction values using List.reverseRecOn with
  | nil => exact List.Sublist.refl _
  | append_singleton values value ih =>
      by_cases old : value ∈ values
      · rw [eraseDups_concat_of_mem old]
        exact ih.trans (List.sublist_append_left values [value])
      · rw [eraseDups_concat_of_not_mem old]
        exact ih.append (List.Sublist.refl [value])

theorem eraseDups_of_nodup {values : List Value} (distinct : values.Nodup) :
    values.eraseDups = values := by
  induction values using List.reverseRecOn with
  | nil => rfl
  | append_singleton values value ih =>
      have parts := List.nodup_append.mp distinct
      have fresh : value ∉ values :=
        fun old => parts.2.2 value old value (List.mem_singleton.mpr rfl) rfl
      rw [eraseDups_concat_of_not_mem fresh, ih parts.1]

theorem eraseDups_filter (keep : Value -> Bool) (values : List Value) :
    (values.filter keep).eraseDups = values.eraseDups.filter keep := by
  induction values using List.reverseRecOn with
  | nil => rfl
  | append_singleton values value ih =>
      rw [List.filter_append, List.filter_singleton]
      by_cases old : value ∈ values
      · rw [eraseDups_concat_of_mem old, ← ih]
        cases kept : keep value with
        | false => rw [cond_false, List.append_nil]
        | true => exact eraseDups_concat_of_mem (List.mem_filter.mpr ⟨old, kept⟩)
      · rw [eraseDups_concat_of_not_mem old, List.filter_append, List.filter_singleton, ← ih]
        cases keep value with
        | false => rw [cond_false, List.append_nil, List.append_nil]
        | true =>
            exact eraseDups_concat_of_not_mem (fun kept => old (List.mem_filter.mp kept).1)

/-- Where a function keeps the values apart, the first occurrences of its
images are the images of the first occurrences. -/
theorem eraseDups_map {Other : Type} [BEq Other] [LawfulBEq Other] {change : Value -> Other}
    {values : List Value}
    (apart : forall first, first ∈ values -> forall second, second ∈ values ->
      change first = change second -> first = second) :
    (values.map change).eraseDups = values.eraseDups.map change := by
  induction values using List.reverseRecOn with
  | nil => rfl
  | append_singleton values value ih =>
      have earlier := ih (fun first firstMember second secondMember =>
        apart first (List.mem_append_left _ firstMember) second
          (List.mem_append_left _ secondMember))
      rw [List.map_append, List.map_singleton]
      by_cases old : value ∈ values
      · rw [eraseDups_concat_of_mem old, eraseDups_concat_of_mem (List.mem_map_of_mem old), earlier]
      · have fresh : change value ∉ values.map change := by
          intro repeated
          rcases List.mem_map.mp repeated with ⟨other, member, same⟩
          have equal := apart other (List.mem_append_left _ member) value
            (List.mem_append_right _ (List.mem_singleton.mpr rfl)) same
          exact old (equal ▸ member)
        rw [eraseDups_concat_of_not_mem old, eraseDups_concat_of_not_mem fresh, earlier,
          List.map_append, List.map_singleton]

/-- First occurrences are listed in the order of their positions. -/
theorem pairwise_idxOf_eraseDups (values : List Value) :
    values.eraseDups.Pairwise (fun first second => values.idxOf first < values.idxOf second) := by
  induction values using List.reverseRecOn with
  | nil => exact List.Pairwise.nil
  | append_singleton values value ih =>
      have kept : forall other, other ∈ values.eraseDups ->
          (values ++ [value]).idxOf other = values.idxOf other :=
        fun other member => List.idxOf_append_of_mem (List.mem_eraseDups.mp member)
      have earlier : values.eraseDups.Pairwise (fun first second =>
          (values ++ [value]).idxOf first < (values ++ [value]).idxOf second) := by
        refine ih.imp_of_mem ?_
        intro first second firstMember secondMember before
        rwa [kept first firstMember, kept second secondMember]
      by_cases old : value ∈ values
      · rwa [eraseDups_concat_of_mem old]
      · rw [eraseDups_concat_of_not_mem old, List.pairwise_append]
        refine ⟨earlier, List.pairwise_singleton _ _, ?_⟩
        intro first firstMember last lastMember
        rw [List.mem_singleton.mp lastMember, kept first firstMember,
          List.idxOf_append_of_notMem old]
        exact Nat.lt_add_right _ (List.idxOf_lt_length_of_mem (List.mem_eraseDups.mp firstMember))

theorem nodup_eraseDups (values : List Value) : values.eraseDups.Nodup := by
  refine (pairwise_idxOf_eraseDups values).imp ?_
  rintro first second less rfl
  exact Nat.lt_irrefl _ less

end FirstOccurrences

/-! ## Neighbours on either side -/

/-- The side on which neighbours are asked for. -/
inductive Direction where
  | incoming
  | outgoing
  deriving DecidableEq

namespace Direction

/-- The end of a link at the node itself. -/
def near : Direction -> NodeId × NodeId -> NodeId
  | .incoming, link => link.2
  | .outgoing, link => link.1

/-- The end of a link at the neighbour. -/
def far : Direction -> NodeId × NodeId -> NodeId
  | .incoming, link => link.1
  | .outgoing, link => link.2

/-- A link of a node is known by its neighbour. -/
theorem eq_of_far_eq (direction : Direction) {id : NodeId} {link other : NodeId × NodeId}
    (near : (direction.near link == id) = true) (otherNear : (direction.near other == id) = true)
    (same : direction.far link = direction.far other) : link = other := by
  have nearSame : direction.near link = direction.near other :=
    (eq_of_beq near).trans (eq_of_beq otherNear).symm
  cases direction with
  | incoming => exact Prod.ext same nearSame
  | outgoing => exact Prod.ext nearSame same

end Direction

namespace DependencyGraph

def neighbours (graph : DependencyGraph) (direction : Direction) (id : NodeId) : List NodeId :=
  (graph.links.filter (fun link => direction.near link == id)).map direction.far

/-- A node outside the graph has no neighbours. -/
theorem neighbours_of_not_mem {graph : DependencyGraph} {id : NodeId} (unknown : id ∉ graph.ids)
    (direction : Direction) : graph.neighbours direction id = [] := by
  rw [neighbours, List.map_eq_nil_iff, List.filter_eq_nil_iff]
  intro link member same
  have here : direction.near link = id := beq_iff_eq.mp same
  cases direction with
  | incoming => exact unknown (here ▸ (graph.closed link member).2)
  | outgoing => exact unknown (here ▸ (graph.closed link member).1)

end DependencyGraph

/-! ## Nodes and links of a document -/

def Edge.ends (edge : Edge) : NodeId × NodeId := (edge.source, edge.target)

/-- The edges that join nodes of the document. -/
def innerEdges (nodes : List Node) (edges : List Edge) : List Edge :=
  edges.filter (fun edge => edge.source ∈ nodes.map Node.id ∧ edge.target ∈ nodes.map Node.id)

theorem mem_innerEdges {nodes : List Node} {edges : List Edge} {edge : Edge} :
    edge ∈ innerEdges nodes edges ↔
      edge ∈ edges ∧ edge.source ∈ nodes.map Node.id ∧ edge.target ∈ nodes.map Node.id := by
  rw [innerEdges, List.mem_filter, decide_eq_true_eq]

theorem innerEdges_concat (nodes : List Node) (edges : List Edge) (edge : Edge) :
    innerEdges nodes (edges ++ [edge])
      = if edge.source ∈ nodes.map Node.id ∧ edge.target ∈ nodes.map Node.id then
          innerEdges nodes edges ++ [edge]
        else innerEdges nodes edges := by
  rw [innerEdges, List.filter_append, List.filter_singleton, ← innerEdges]
  split
  · rename_i known
    rw [decide_eq_true known, cond_true]
  · rename_i unknown
    rw [decide_eq_false unknown, cond_false, List.append_nil]

namespace DependencyGraph

theorem eq_of_ids_of_links {graph other : DependencyGraph}
    (sameIds : graph.ids = other.ids) (sameLinks : graph.links = other.links) : graph = other := by
  cases graph
  cases other
  cases sameIds
  cases sameLinks
  rfl

theorem ids_addNode (graph : DependencyGraph) (id : NodeId) :
    (graph.addNode id).ids = if id ∈ graph.ids then graph.ids else graph.ids ++ [id] := by
  unfold addNode
  split <;> rfl

theorem links_addNode (graph : DependencyGraph) (id : NodeId) :
    (graph.addNode id).links = graph.links := by
  unfold addNode
  split <;> rfl

theorem ids_addLink (graph : DependencyGraph) (source target : NodeId) :
    (graph.addLink source target).ids = graph.ids := by
  unfold addLink
  split
  · split <;> rfl
  · rfl

/-- A link is added where both its ends are known and it is not there yet. -/
theorem links_addLink (graph : DependencyGraph) (source target : NodeId) :
    (graph.addLink source target).links
      = if (source ∈ graph.ids ∧ target ∈ graph.ids) ∧ (source, target) ∉ graph.links then
          graph.links ++ [(source, target)]
        else graph.links := by
  unfold addLink
  split
  · rename_i known
    split
    · rename_i old
      rw [if_neg (fun added => added.2 old)]
    · rename_i fresh
      rw [if_pos ⟨known, fresh⟩]
  · rename_i unknown
    rw [if_neg (fun added => unknown added.1)]

/-- The graph before any edge is added. -/
def ofNodes (nodes : List Node) : DependencyGraph :=
  nodes.foldl (fun graph node => graph.addNode node.id) empty

theorem ids_ofNodes (nodes : List Node) : (ofNodes nodes).ids = (nodes.map Node.id).eraseDups := by
  induction nodes using List.reverseRecOn with
  | nil => rfl
  | append_singleton nodes node ih =>
      have step : (ofNodes (nodes ++ [node])).ids = ((ofNodes nodes).addNode node.id).ids := by
        simp [ofNodes]
      rw [step, ids_addNode, ih, List.map_append, List.map_singleton]
      by_cases old : node.id ∈ nodes.map Node.id
      · rw [eraseDups_concat_of_mem old, if_pos (List.mem_eraseDups.mpr old)]
      · rw [eraseDups_concat_of_not_mem old, if_neg (mt List.mem_eraseDups.mp old)]

theorem links_ofNodes (nodes : List Node) : (ofNodes nodes).links = [] := by
  induction nodes using List.reverseRecOn with
  | nil => rfl
  | append_singleton nodes node ih =>
      have step : (ofNodes (nodes ++ [node])).links = ((ofNodes nodes).addNode node.id).links := by
        simp [ofNodes]
      rw [step, links_addNode, ih]

theorem ofDocument_concat (nodes : List Node) (edges : List Edge) (edge : Edge) :
    ofDocument nodes (edges ++ [edge])
      = (ofDocument nodes edges).addLink edge.source edge.target := by
  simp [ofDocument]

theorem ids_ofDocument (nodes : List Node) (edges : List Edge) :
    (ofDocument nodes edges).ids = (nodes.map Node.id).eraseDups := by
  induction edges using List.reverseRecOn with
  | nil => exact ids_ofNodes nodes
  | append_singleton edges edge ih => rw [ofDocument_concat, ids_addLink, ih]

theorem mem_ids_ofDocument {nodes : List Node} {edges : List Edge} {id : NodeId} :
    id ∈ (ofDocument nodes edges).ids ↔ id ∈ nodes.map Node.id := by
  rw [ids_ofDocument, List.mem_eraseDups]

/-- The links are the ends of the inner edges, each pair where it first occurs. -/
theorem links_ofDocument (nodes : List Node) (edges : List Edge) :
    (ofDocument nodes edges).links = ((innerEdges nodes edges).map Edge.ends).eraseDups := by
  induction edges using List.reverseRecOn with
  | nil => exact links_ofNodes nodes
  | append_singleton edges edge ih =>
      have step : (ofDocument nodes (edges ++ [edge])).links
          = if (edge.source ∈ nodes.map Node.id ∧ edge.target ∈ nodes.map Node.id) ∧
                edge.ends ∉ (innerEdges nodes edges).map Edge.ends then
              ((innerEdges nodes edges).map Edge.ends).eraseDups ++ [edge.ends]
            else ((innerEdges nodes edges).map Edge.ends).eraseDups := by
        rw [ofDocument_concat, links_addLink]
        simp only [ih, mem_ids_ofDocument, List.mem_eraseDups]
        rfl
      rw [step, innerEdges_concat]
      by_cases known : edge.source ∈ nodes.map Node.id ∧ edge.target ∈ nodes.map Node.id
      · rw [if_pos known, List.map_append, List.map_singleton]
        by_cases old : edge.ends ∈ (innerEdges nodes edges).map Edge.ends
        · rw [if_neg (fun added => added.2 old), eraseDups_concat_of_mem old]
        · rw [if_pos ⟨known, old⟩, eraseDups_concat_of_not_mem old]
      · rw [if_neg known, if_neg (fun added => known added.1)]

/-- Two nodes are linked exactly when both exist and an edge joins them. -/
theorem mem_links_ofDocument {nodes : List Node} {edges : List Edge} {link : NodeId × NodeId} :
    link ∈ (ofDocument nodes edges).links ↔
      (∃ edge, edge ∈ edges ∧ edge.source = link.1 ∧ edge.target = link.2) ∧
        link.1 ∈ nodes.map Node.id ∧ link.2 ∈ nodes.map Node.id := by
  rw [links_ofDocument, List.mem_eraseDups, List.mem_map]
  constructor
  · rintro ⟨edge, inner, rfl⟩
    rcases mem_innerEdges.mp inner with ⟨member, known⟩
    exact ⟨⟨edge, member, rfl, rfl⟩, known⟩
  · rintro ⟨⟨edge, member, source, target⟩, known⟩
    refine ⟨edge, mem_innerEdges.mpr ⟨member, ?_⟩, Prod.ext source target⟩
    rwa [source, target]

theorem mem_incomers_ofDocument {nodes : List Node} {edges : List Edge} {source target : NodeId} :
    source ∈ (ofDocument nodes edges).incomers target ↔
      (∃ edge, edge ∈ edges ∧ edge.source = source ∧ edge.target = target) ∧
        source ∈ nodes.map Node.id ∧ target ∈ nodes.map Node.id :=
  mem_incomers.trans mem_links_ofDocument

theorem nodup_links_ofDocument (nodes : List Node) (edges : List Edge) :
    (ofDocument nodes edges).links.Nodup := by
  rw [links_ofDocument]
  exact nodup_eraseDups _

/-- Parallel edges count once, so that no neighbour is listed twice. -/
theorem nodup_neighbours_ofDocument (nodes : List Node) (edges : List Edge)
    (direction : Direction) (id : NodeId) :
    ((ofDocument nodes edges).neighbours direction id).Nodup := by
  refine List.Nodup.map_on ?_ ((nodup_links_ofDocument nodes edges).filter _)
  intro link member other otherMember same
  exact direction.eq_of_far_eq (List.mem_filter.mp member).2 (List.mem_filter.mp otherMember).2 same

theorem nodup_outgoers_ofDocument (nodes : List Node) (edges : List Edge) (id : NodeId) :
    ((ofDocument nodes edges).outgoers id).Nodup :=
  nodup_neighbours_ofDocument nodes edges .outgoing id

theorem nodeCount_ofDocument (nodes : List Node) (edges : List Edge) :
    (ofDocument nodes edges).nodeCount = (nodes.map Node.id).eraseDups.length := by
  rw [nodeCount, ids_ofDocument]

theorem nodeCount_le_length (nodes : List Node) (edges : List Edge) :
    (ofDocument nodes edges).nodeCount ≤ nodes.length := by
  rw [nodeCount_ofDocument]
  simpa using (eraseDups_sublist (nodes.map Node.id)).length_le

end DependencyGraph

end FlowPlan
