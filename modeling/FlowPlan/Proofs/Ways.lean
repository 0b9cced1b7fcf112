import FlowPlan.Proofs.Walk
import Mathlib.Data.List.Perm.Subperm

namespace FlowPlan

/-!
The ways from one node, and the order in which a walk takes its nodes.

What is behind a node is a tree with that node as its root exactly where one
way alone leads to each node in it.  A walk that looks for a second way may
take its pending nodes in any order: it comes to an end after no more turns
than there are nodes, and every order finds the same.
-/

/-! ## Ways -/

/-- A way from `start`, told by the nodes that it leaves, the latest first. -/
inductive Way (leads : NodeId -> NodeId -> Prop) (start : NodeId) : List NodeId -> NodeId -> Prop
  | here : Way leads start [] start
  | onward {passed : List NodeId} {last next : NodeId} (way : Way leads start passed last)
      (step : leads last next) : Way leads start (last :: passed) next

section Ways

variable {leads : NodeId -> NodeId -> Prop} {source target id : NodeId}

theorem Way.reflTransGen {passed : List NodeId} (way : Way leads target passed id) :
    Relation.ReflTransGen leads target id := by
  induction way with
  | here => exact .refl
  | onward _ step ih => exact ih.tail step

theorem exists_way (reached : Relation.ReflTransGen leads target id) :
    ∃ passed, Way leads target passed id := by
  induction reached with
  | refl => exact ⟨[], .here⟩
  | tail _ step ih =>
      rcases ih with ⟨passed, way⟩
      exact ⟨_, way.onward step⟩

/-- In a tree two ways to one node pass the same nodes: they come to it from
the same node, and so on back to the root. -/
theorem Clear.way_unique (clear : Clear leads source target) {passed others : List NodeId}
    (way : Way leads target passed id) (other : Way leads target others id) : passed = others := by
  induction way generalizing others with
  | here =>
      cases other with
      | here => rfl
      | onward before step => exact absurd step (clear.rooted _ before.reflTransGen)
  | onward way step ih =>
      cases other with
      | here => exact absurd step (clear.rooted _ way.reflTransGen)
      | onward before stepToo =>
          cases clear.single _ _ _ way.reflTransGen before.reflTransGen step stepToo
          rw [ih before]

/-- What is behind a node is a tree where a single way leads to each node in it. -/
theorem clear_iff_way_unique :
    Clear leads source target ↔
      ¬ Relation.ReflTransGen leads target source ∧
        forall id, Relation.ReflTransGen leads target id ->
          ∃! passed, Way leads target passed id := by
  constructor
  · intro clear
    refine ⟨clear.apart, fun id reached => ?_⟩
    rcases exists_way reached with ⟨passed, way⟩
    exact ⟨passed, way, fun _ other => clear.way_unique other way⟩
  · rintro ⟨apart, alone⟩
    have same : forall {id : NodeId} {passed others : List NodeId}, Way leads target passed id ->
        Way leads target others id -> passed = others :=
      fun way other => (alone _ way.reflTransGen).unique way other
    constructor
    case apart => exact apart
    case rooted =>
      intro id reached back
      rcases exists_way reached with ⟨passed, way⟩
      cases same (way.onward back) .here
    case single =>
      intro first second id firstReached secondReached firstLeads secondLeads
      rcases exists_way firstReached with ⟨firstPassed, firstWay⟩
      rcases exists_way secondReached with ⟨secondPassed, secondWay⟩
      exact (List.cons.inj (same (firstWay.onward firstLeads) (secondWay.onward secondLeads))).1

end Ways

/-! ## Walks in any order -/

theorem Forest.perm {leads : NodeId -> NodeId -> Prop} {source : NodeId}
    {visited pending others : List NodeId} (perm : List.Perm pending others)
    (forest : Forest leads source visited pending) : Forest leads source visited others := by
  have below : forall id, Below leads others id -> Below leads pending id := by
    rintro id ⟨root, member, way⟩
    exact ⟨root, perm.mem_iff.mpr member, way⟩
  constructor
  case fresh => exact fun id lower => forest.fresh id (below id lower)
  case nodup => exact perm.nodup_iff.mp forest.nodup
  case rooted =>
    exact fun id root lower member =>
      forest.rooted id root (below id lower) (perm.mem_iff.mpr member)
  case single =>
    exact fun first second id firstLower secondLower =>
      forest.single first second id (below first firstLower) (below second secondLower)
  case apart => exact fun id lower => forest.apart id (below id lower)

namespace DependencyGraph

/-- What a walk from `target` has visited and what it has pending after some
turns, each with any of the pending nodes, none of which closed the walk. -/
inductive Walked (graph : DependencyGraph) (source target : NodeId) :
    List NodeId -> List NodeId -> Prop
  | start : Walked graph source target [] [target]
  | turn {visited pending rest : List NodeId} {current : NodeId}
      (walked : Walked graph source target visited pending)
      (taken : List.Perm pending (current :: rest)) (fresh : current ∉ visited)
      (clear : source ∉ graph.outgoers current) :
      Walked graph source target (current :: visited) (graph.outgoers current ++ rest)

/-- A walk has taken few turns yet, and if this is its end, it finds what the
walk finds that takes the latest pending node first. -/
structure Agrees (graph : DependencyGraph) (source target : NodeId)
    (visited pending : List NodeId) : Prop where
  turns : visited.length ≤ graph.nodeCount + 1
  opens : pending = [] -> graph.walkCloses source [] [target] = false
  closes : forall current, current ∈ pending ->
    current ∈ visited ∨ source ∈ graph.outgoers current ->
    graph.walkCloses source [] [target] = true

section Walks

variable {graph : DependencyGraph} {source target : NodeId} {visited pending : List NodeId}

/-- A walk stays inside the graph once it has left its first node. -/
theorem Walked.subset (walked : Walked graph source target visited pending) :
    visited ⊆ target :: graph.ids ∧ pending ⊆ target :: graph.ids := by
  induction walked with
  | start => exact ⟨List.nil_subset _, by simp⟩
  | turn _ taken _ _ ih =>
      rcases ih with ⟨before, waiting⟩
      have parts := List.cons_subset.mp (List.Subset.trans taken.symm.subset waiting)
      refine ⟨List.cons_subset.mpr ⟨parts.1, before⟩, List.append_subset.mpr ⟨?_, parts.2⟩⟩
      intro next follows
      exact List.mem_cons_of_mem _ (graph.closed _ (mem_outgoers.mp follows)).2

theorem Walked.nodup (walked : Walked graph source target visited pending) : visited.Nodup := by
  induction walked with
  | start => exact List.nodup_nil
  | turn _ _ fresh _ ih => exact List.nodup_cons.mpr ⟨fresh, ih⟩

/-- What one turn keeps: there is a forest below the pending nodes exactly
where there was one below the first node. -/
theorem Walked.forest_iff (nodup : forall id, (graph.outgoers id).Nodup)
    (walked : Walked graph source target visited pending) :
    Forest graph.Linked source visited pending ↔ Forest graph.Linked source [] [target] := by
  induction walked with
  | start => exact Iff.rfl
  | turn _ taken fresh clear ih =>
      rw [← ih]
      constructor
      · exact fun forest => (forest.cons (fun _ => Iff.rfl) fresh clear).perm taken.symm
      · exact fun forest => (forest.perm taken).tail (fun _ => Iff.rfl) (nodup _)

/-- Every order of walking ends, and finds the same. -/
theorem Walked.agrees (nodup : forall id, (graph.outgoers id).Nodup)
    (walked : Walked graph source target visited pending) :
    Agrees graph source target visited pending := by
  have found : graph.walkCloses source [] [target] = false ↔
      Forest graph.Linked source visited pending :=
    (walkCloses_eq_false_iff_forest nodup).trans (walked.forest_iff nodup).symm
  constructor
  case turns =>
    have bound := (walked.nodup.subperm walked.subset.1).length_le
    rwa [List.length_cons] at bound
  case opens =>
    rintro rfl
    exact found.mpr (forest_nil visited)
  case closes =>
    intro current waiting closing
    apply eq_true_of_ne_false
    intro stays
    have forest := found.mp stays
    rcases closing with seen | met
    · exact forest.fresh current (below_of_mem waiting) seen
    · exact forest.apart current (below_of_mem waiting) met

end Walks

end DependencyGraph

end FlowPlan
