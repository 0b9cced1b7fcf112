import FlowPlan.Connection
import FlowPlan.Proofs.Links
import Mathlib.Logic.Relation

namespace FlowPlan

/-!
Cycles, and the walk that looks for them.

A walk from one node stays open exactly where the node it looks for cannot be
reached, and every node that can be reached is reached in one way only: what is
behind the first node is a tree.  Adding an edge whose source cannot be reached
from its target closes no cycle.
-/

/-- An edge goes from the one node to the other. -/
def Leads (edges : List Edge) (source target : NodeId) : Prop :=
  ∃ edge, edge ∈ edges ∧ edge.source = source ∧ edge.target = target

/-- No node leads back to itself. -/
def Acyclic (edges : List Edge) : Prop :=
  forall id, ¬ Relation.TransGen (Leads edges) id id

theorem leads_mono {fewer edges : List Edge} (subset : fewer ⊆ edges) :
    Leads fewer ≤ Leads edges := by
  rintro source target ⟨edge, member, ends⟩
  exact ⟨edge, subset member, ends⟩

theorem acyclic_nil : Acyclic [] := by
  intro id cycle
  rcases Relation.TransGen.head'_iff.mp cycle with ⟨_, ⟨edge, member, _⟩, _⟩
  cases member

theorem Acyclic.mono {fewer edges : List Edge} (subset : fewer ⊆ edges)
    (acyclic : Acyclic edges) : Acyclic fewer :=
  fun id cycle => acyclic id (Relation.TransGen.mono (leads_mono subset) id id cycle)

theorem leads_concat {edges : List Edge} {edge : Edge} {source target : NodeId}
    (leads : Leads (edges ++ [edge]) source target) :
    Leads edges source target ∨ (source = edge.source ∧ target = edge.target) := by
  rcases leads with ⟨other, member, rfl, rfl⟩
  rcases List.mem_append.mp member with old | last
  · exact Or.inl ⟨other, old, rfl, rfl⟩
  · rw [List.mem_singleton.mp last]
    exact Or.inr ⟨rfl, rfl⟩

/-- Where one relation has a single pair more than another, a way of the larger
one either avoids that pair, or comes to it and goes on from it without it. -/
theorem transGen_of_added {fewer more : NodeId -> NodeId -> Prop} {source target : NodeId}
    (added : forall first second, more first second ->
      fewer first second ∨ (first = source ∧ second = target))
    {start goal : NodeId} (way : Relation.TransGen more start goal) :
    Relation.TransGen fewer start goal ∨
      (Relation.ReflTransGen fewer start source ∧ Relation.ReflTransGen fewer target goal) := by
  induction way with
  | single step =>
      rcases added _ _ step with old | ⟨rfl, rfl⟩
      · exact Or.inl (.single old)
      · exact Or.inr ⟨.refl, .refl⟩
  | tail _ step ih =>
      rcases added _ _ step with old | ⟨rfl, rfl⟩
      · rcases ih with avoiding | ⟨toSource, fromTarget⟩
        · exact Or.inl (avoiding.tail old)
        · exact Or.inr ⟨toSource, fromTarget.tail old⟩
      · rcases ih with avoiding | ⟨toSource, _⟩
        · exact Or.inr ⟨avoiding.to_reflTransGen, .refl⟩
        · exact Or.inr ⟨toSource, .refl⟩

/-- A single pair more closes a cycle only where its target led to its source. -/
theorem not_transGen_of_added {fewer more : NodeId -> NodeId -> Prop} {source target : NodeId}
    (added : forall first second, more first second ->
      fewer first second ∨ (first = source ∧ second = target))
    (acyclic : forall id, ¬ Relation.TransGen fewer id id)
    (apart : ¬ Relation.ReflTransGen fewer target source) (id : NodeId) :
    ¬ Relation.TransGen more id id := by
  intro cycle
  rcases transGen_of_added added cycle with avoiding | ⟨toSource, fromTarget⟩
  · exact acyclic id avoiding
  · exact apart (fromTarget.trans toSource)

theorem Acyclic.concat {edges : List Edge} {edge : Edge} (acyclic : Acyclic edges)
    (apart : ¬ Relation.ReflTransGen (Leads edges) edge.target edge.source) :
    Acyclic (edges ++ [edge]) :=
  not_transGen_of_added (fun _ _ => leads_concat) acyclic apart

/-! ## Trees -/

/-- What is behind `target` is a tree with `target` as its root, and `source`
is not in it. -/
structure Clear (leads : NodeId -> NodeId -> Prop) (source target : NodeId) : Prop where
  apart : ¬ Relation.ReflTransGen leads target source
  rooted : forall id, Relation.ReflTransGen leads target id -> ¬ leads id target
  single : forall first second id, Relation.ReflTransGen leads target first ->
    Relation.ReflTransGen leads target second -> leads first id -> leads second id ->
    first = second

theorem Clear.different {leads : NodeId -> NodeId -> Prop} {source target : NodeId}
    (clear : Clear leads source target) : source ≠ target := by
  rintro rfl
  exact clear.apart .refl

/-- With fewer ways a tree is cut down, and stays a tree. -/
theorem Clear.mono {fewer more : NodeId -> NodeId -> Prop} (subset : fewer ≤ more)
    {source target : NodeId} (clear : Clear more source target) : Clear fewer source target := by
  have longer : forall id, Relation.ReflTransGen fewer target id ->
      Relation.ReflTransGen more target id :=
    fun id way => Relation.ReflTransGen.mono subset target id way
  constructor
  case apart => exact fun way => clear.apart (longer source way)
  case rooted => exact fun id way back => clear.rooted id (longer id way) (subset id target back)
  case single =>
    intro first second id firstWay secondWay firstLeads secondLeads
    exact clear.single first second id (longer first firstWay) (longer second secondWay)
      (subset first id firstLeads) (subset second id secondLeads)

/-- A node that leads nowhere is a tree by itself. -/
theorem clear_of_end {leads : NodeId -> NodeId -> Prop} {source target : NodeId}
    (different : source ≠ target) (ends : forall id, ¬ leads target id) :
    Clear leads source target := by
  have alone : forall id, Relation.ReflTransGen leads target id -> id = target := by
    intro id way
    rcases Relation.ReflTransGen.cases_head way with same | ⟨next, step, _⟩
    · exact same.symm
    · exact absurd step (ends next)
  constructor
  case apart => exact fun way => different (alone source way)
  case rooted =>
    intro id way back
    rw [alone id way] at back
    exact ends target back
  case single =>
    intro first second _ firstWay secondWay _ _
    rw [alone first firstWay, alone second secondWay]

/-- One of the roots is `id`, or leads to it. -/
def Below (leads : NodeId -> NodeId -> Prop) (roots : List NodeId) (id : NodeId) : Prop :=
  ∃ root, root ∈ roots ∧ Relation.ReflTransGen leads root id

/-- What is below the roots falls into a tree for each of them.  No node of
these trees has been visited, and none leads to `source`. -/
structure Forest (leads : NodeId -> NodeId -> Prop) (source : NodeId)
    (visited roots : List NodeId) : Prop where
  fresh : forall id, Below leads roots id -> id ∉ visited
  nodup : roots.Nodup
  rooted : forall id root, Below leads roots id -> root ∈ roots -> ¬ leads id root
  single : forall first second id, Below leads roots first -> Below leads roots second ->
    leads first id -> leads second id -> first = second
  apart : forall id, Below leads roots id -> ¬ leads id source

section Forest

variable {leads : NodeId -> NodeId -> Prop} {source target : NodeId}

theorem below_of_mem {roots : List NodeId} {id : NodeId} (member : id ∈ roots) :
    Below leads roots id :=
  ⟨id, member, .refl⟩

theorem not_below_nil (id : NodeId) : ¬ Below leads [] id := by
  rintro ⟨root, none, _⟩
  cases none

theorem below_singleton_iff {id : NodeId} :
    Below leads [target] id ↔ Relation.ReflTransGen leads target id := by
  constructor
  · rintro ⟨root, only, way⟩
    exact List.mem_singleton.mp only ▸ way
  · intro way
    exact ⟨target, List.mem_singleton.mpr rfl, way⟩

theorem forest_nil (visited : List NodeId) : Forest leads source visited [] where
  fresh := fun id below => absurd below (not_below_nil id)
  nodup := List.nodup_nil
  rooted := fun id _ below => absurd below (not_below_nil id)
  single := fun first _ _ below => absurd below (not_below_nil first)
  apart := fun id below => absurd below (not_below_nil id)

theorem forest_singleton_iff (different : source ≠ target) :
    Forest leads source [] [target] ↔ Clear leads source target := by
  constructor
  · intro forest
    constructor
    case apart =>
      intro way
      rcases Relation.ReflTransGen.cases_tail way with same | ⟨last, before, step⟩
      · exact different same
      · exact forest.apart last (below_singleton_iff.mpr before) step
    case rooted =>
      exact fun id way => forest.rooted id target (below_singleton_iff.mpr way)
        (List.mem_singleton.mpr rfl)
    case single =>
      exact fun first second id firstWay secondWay => forest.single first second id
        (below_singleton_iff.mpr firstWay) (below_singleton_iff.mpr secondWay)
  · intro clear
    constructor
    case fresh => exact fun id _ => List.not_mem_nil
    case nodup => exact List.nodup_cons.mpr ⟨List.not_mem_nil, List.nodup_nil⟩
    case rooted =>
      intro id root below only
      rw [List.mem_singleton.mp only]
      exact clear.rooted id (below_singleton_iff.mp below)
    case single =>
      exact fun first second id firstBelow secondBelow => clear.single first second id
        (below_singleton_iff.mp firstBelow) (below_singleton_iff.mp secondBelow)
    case apart =>
      exact fun id below step => clear.apart ((below_singleton_iff.mp below).tail step)

variable {visited next pending : List NodeId} {current : NodeId}

/-- Going on from a root to the nodes next to it leaves out the root alone. -/
theorem below_cons_iff (follows : forall id, leads current id ↔ id ∈ next) {id : NodeId} :
    Below leads (current :: pending) id ↔ id = current ∨ Below leads (next ++ pending) id := by
  constructor
  · rintro ⟨root, member, way⟩
    rcases List.mem_cons.mp member with rfl | later
    · rcases Relation.ReflTransGen.cases_head way with same | ⟨first, step, rest⟩
      · exact Or.inl same.symm
      · exact Or.inr ⟨first, List.mem_append_left _ ((follows first).mp step), rest⟩
    · exact Or.inr ⟨root, List.mem_append_right _ later, way⟩
  · rintro (rfl | ⟨root, member, way⟩)
    · exact below_of_mem List.mem_cons_self
    · rcases List.mem_append.mp member with first | later
      · exact ⟨current, List.mem_cons_self, way.head ((follows root).mpr first)⟩
      · exact ⟨root, List.mem_cons_of_mem _ later, way⟩

/-- The trees that are left when a root is taken from its tree. -/
theorem Forest.tail (forest : Forest leads source visited (current :: pending))
    (follows : forall id, leads current id ↔ id ∈ next) (nextNodup : next.Nodup) :
    Forest leads source (current :: visited) (next ++ pending) := by
  have below : forall id, Below leads (next ++ pending) id ->
      Below leads (current :: pending) id :=
    fun id lower => (below_cons_iff follows).mpr (Or.inr lower)
  have parts := List.nodup_cons.mp forest.nodup
  have rootCurrent : current ∈ current :: pending := List.mem_cons_self
  have other : forall id, Below leads (next ++ pending) id -> id ≠ current := by
    rintro id ⟨root, member, way⟩ same
    rw [same] at way
    rcases Relation.ReflTransGen.cases_tail way with atRoot | ⟨last, before, step⟩
    · rw [← atRoot] at member
      rcases List.mem_append.mp member with first | later
      · exact forest.rooted current current (below_of_mem rootCurrent) rootCurrent
          ((follows current).mpr first)
      · exact parts.1 later
    · exact forest.rooted last current (below last ⟨root, member, before⟩) rootCurrent step
  constructor
  case fresh =>
    intro id lower member
    rcases List.mem_cons.mp member with same | earlier
    · exact other id lower same
    · exact forest.fresh id (below id lower) earlier
  case nodup =>
    refine List.nodup_append.mpr ⟨nextNodup, parts.2, ?_⟩
    rintro root first _ later rfl
    exact forest.rooted current root (below_of_mem rootCurrent) (List.mem_cons_of_mem _ later)
      ((follows root).mpr first)
  case rooted =>
    intro id root lower member step
    rcases List.mem_append.mp member with first | later
    · exact other id lower (forest.single id current root (below id lower)
        (below_of_mem rootCurrent) step ((follows root).mpr first))
    · exact forest.rooted id root (below id lower) (List.mem_cons_of_mem _ later) step
  case single =>
    exact fun first second id firstLower secondLower =>
      forest.single first second id (below first firstLower) (below second secondLower)
  case apart => exact fun id lower => forest.apart id (below id lower)

/-- Trees next to a node that none of them holds make a tree below it. -/
theorem Forest.cons (forest : Forest leads source (current :: visited) (next ++ pending))
    (follows : forall id, leads current id ↔ id ∈ next) (unvisited : current ∉ visited)
    (clear : source ∉ next) : Forest leads source visited (current :: pending) := by
  have other : forall id, Below leads (next ++ pending) id -> id ≠ current :=
    fun id lower same => forest.fresh id lower (same ▸ List.mem_cons_self)
  have parts := List.nodup_append.mp forest.nodup
  constructor
  case fresh =>
    intro id below earlier
    rcases (below_cons_iff follows).mp below with rfl | lower
    · exact unvisited earlier
    · exact forest.fresh id lower (List.mem_cons_of_mem _ earlier)
  case nodup =>
    refine List.nodup_cons.mpr ⟨?_, parts.2.1⟩
    intro later
    exact other current (below_of_mem (List.mem_append_right _ later)) rfl
  case rooted =>
    intro id root below member step
    rcases List.mem_cons.mp member with rfl | later
    · rcases (below_cons_iff follows).mp below with rfl | ⟨start, among, way⟩
      · have itself : Below leads (next ++ pending) id :=
          below_of_mem (List.mem_append_left _ ((follows id).mp step))
        exact other id itself rfl
      · exact other root ⟨start, among, way.tail step⟩ rfl
    · rcases (below_cons_iff follows).mp below with rfl | lower
      · exact parts.2.2 root ((follows root).mp step) root later rfl
      · exact forest.rooted id root lower (List.mem_append_right _ later) step
  case single =>
    -- A node next to the current one is a root of the smaller forest.
    have alone : forall first id, Below leads (next ++ pending) first -> leads first id ->
        ¬ leads current id :=
      fun first id lower step here => forest.rooted first id lower
        (List.mem_append_left _ ((follows id).mp here)) step
    intro first second id firstBelow secondBelow firstLeads secondLeads
    rcases (below_cons_iff follows).mp firstBelow with rfl | firstLower
    · rcases (below_cons_iff follows).mp secondBelow with rfl | secondLower
      · rfl
      · exact absurd firstLeads (alone second id secondLower secondLeads)
    · rcases (below_cons_iff follows).mp secondBelow with rfl | secondLower
      · exact absurd secondLeads (alone first id firstLower firstLeads)
      · exact forest.single first second id firstLower secondLower firstLeads secondLeads
  case apart =>
    intro id below step
    rcases (below_cons_iff follows).mp below with rfl | lower
    · exact clear ((follows source).mp step)
    · exact forest.apart id lower step

end Forest

/-! ## The walk -/

namespace DependencyGraph

def Linked (graph : DependencyGraph) (source target : NodeId) : Prop :=
  target ∈ graph.outgoers source

/-- The walk stays open exactly where its pending nodes are the roots of a
forest. -/
theorem walkCloses_eq_false_iff_forest {graph : DependencyGraph}
    (nodup : forall id, (graph.outgoers id).Nodup) {source : NodeId}
    {visited pending : List NodeId} :
    graph.walkCloses source visited pending = false ↔
      Forest graph.Linked source visited pending := by
  fun_induction walkCloses graph source visited pending with
  | case1 visited => exact ⟨fun _ => forest_nil visited, fun _ => rfl⟩
  | case2 visited current pending seen =>
      constructor
      · intro impossible
        cases impossible
      · intro forest
        exact absurd seen (forest.fresh current (below_of_mem List.mem_cons_self))
  | case3 visited current pending fresh met =>
      constructor
      · intro impossible
        cases impossible
      · intro forest
        exact absurd met (forest.apart current (below_of_mem List.mem_cons_self))
  | case4 visited current pending fresh clear ih =>
      rw [ih]
      constructor
      · intro forest
        exact forest.cons (fun _ => Iff.rfl) fresh clear
      · intro forest
        exact forest.tail (fun _ => Iff.rfl) (nodup current)

section Document

variable {nodes : List Node} {edges : List Edge} {source target : NodeId}

theorem walkCloses_ofDocument_eq_false_iff (different : source ≠ target) :
    (ofDocument nodes edges).walkCloses source [] [target] = false ↔
      Clear (ofDocument nodes edges).Linked source target :=
  (walkCloses_eq_false_iff_forest (nodup_outgoers_ofDocument nodes edges)).trans
    (forest_singleton_iff different)

theorem linked_ofDocument_iff :
    (ofDocument nodes edges).Linked source target ↔
      Leads edges source target ∧ source ∈ nodes.map Node.id ∧ target ∈ nodes.map Node.id :=
  mem_outgoers.trans mem_links_ofDocument

/-- Taking out nodes or edges takes out links. -/
theorem linked_mono {fewerNodes : List Node} {fewerEdges : List Edge}
    (ids : fewerNodes.map Node.id ⊆ nodes.map Node.id) (subset : fewerEdges ⊆ edges) :
    (ofDocument fewerNodes fewerEdges).Linked ≤ (ofDocument nodes edges).Linked := by
  intro first second linked
  rcases linked_ofDocument_iff.mp linked with ⟨leads, firstKnown, secondKnown⟩
  exact linked_ofDocument_iff.mpr
    ⟨leads_mono subset first second leads, ids firstKnown, ids secondKnown⟩

/-- Where all edges stay inside the document, they are its links. -/
theorem linked_eq_leads
    (inside : forall edge, edge ∈ edges ->
      edge.source ∈ nodes.map Node.id ∧ edge.target ∈ nodes.map Node.id) :
    (ofDocument nodes edges).Linked = Leads edges := by
  ext first second
  rw [linked_ofDocument_iff, and_iff_left_iff_imp]
  rintro ⟨edge, member, rfl, rfl⟩
  exact inside edge member

end Document

end DependencyGraph

end FlowPlan
