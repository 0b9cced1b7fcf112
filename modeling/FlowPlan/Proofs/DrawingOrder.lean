import FlowPlan.Proofs.Drawing
import FlowPlan.Proofs.Redrawing
import Mathlib.Data.List.Forall2

namespace FlowPlan

/-!
An order in which a graph can be drawn.

An edge is refused where ways meet again behind its target, so that a graph
without cycles may not be accepted in every order.  Drawing each edge while
nothing leads on from its target avoids this, and edges without a cycle can
always be put into such an order: some edge leads to a node that no edge leaves,
and it can be drawn last.
-/

/-! ## Literals of a drawn flow -/

/-- The node after drawing: each input that one of the edges feeds holds the
empty text, and nothing else is changed. -/
structure Emptied (edges : List Edge) (node drawn : Node) : Prop where
  id : drawn.id = node.id
  taskType : drawn.taskType = node.taskType
  inputs : forall name, drawn.inputs.get? name =
    if edges.any (fun edge => edge.feeds node.id name) then some "" else node.inputs.get? name

theorem emptied_nil (node : Node) : Emptied [] node node := ⟨rfl, rfl, fun _ => rfl⟩

theorem get?_inputs_clearInput (target : NodeId) (handle : String) (node : Node) (name : String) :
    (clearInput target handle node).inputs.get? name
      = if node.id = target ∧ name = handle then some "" else node.inputs.get? name := by
  unfold clearInput
  by_cases here : node.id = target
  · rw [if_pos here]
    by_cases same : name = handle
    · rw [if_pos ⟨here, same⟩, same]
      exact Dictionary.get?_insert_self _ _ _
    · rw [if_neg (fun both => same both.2)]
      exact Dictionary.get?_insert_of_ne _ _ (Ne.symm same)
  · rw [if_neg here, if_neg (fun both => here both.1)]

theorem Emptied.cons {edges : List Edge} {edge : Edge} {handle : String} {node drawn : Node}
    (named : edge.targetHandle = some handle)
    (emptied : Emptied edges (clearInput edge.target handle node) drawn) :
    Emptied (edge :: edges) node drawn where
  id := emptied.id.trans (id_clearInput edge.target handle node)
  taskType := emptied.taskType.trans (taskType_clearInput edge.target handle node)
  inputs := by
    intro name
    rw [emptied.inputs name, id_clearInput, get?_inputs_clearInput, List.any_cons]
    by_cases later : edges.any (fun other => other.feeds node.id name) = true
    · rw [if_pos later, later, Bool.or_true, if_pos rfl]
    · rw [if_neg later, eq_false_of_ne_true later, Bool.or_false]
      exact if_congr (feeds_iff_of_named named).symm rfl rfl

theorem emptied_of_draw {registry : Registry} {flow drawn : Flow} {edges : List Edge}
    (distinct : (flow.nodes.map Node.id).Nodup) (accepted : flow.draw registry edges = .ok drawn) :
    List.Forall₂ (Emptied edges) flow.nodes drawn.nodes := by
  induction edges generalizing flow with
  | nil =>
      cases accepted
      exact List.forall₂_same.mpr (fun node _ => emptied_nil node)
  | cons edge rest ih =>
      rcases Flow.draw_cons_eq_ok_iff.mp accepted with ⟨first, connected, later⟩
      rcases Flow.connect_eq_ok_iff.mp connected with ⟨_, handle, named, _, rfl⟩
      have cleared : updateNode edge.target (fun node => node.withInput handle "") flow.nodes
          = flow.nodes.map (clearInput edge.target handle) := updateNode_eq_map distinct _ _
      rw [cleared] at later
      have emptied := ih (by simpa [Function.comp_def] using distinct) later
      rw [List.forall₂_map_left_iff] at emptied
      exact emptied.imp (fun _ _ rest => rest.cons named)

/-! ## Edges in order -/

/-- Some edge leads to a node that no edge leaves. -/
theorem exists_last {edges : List Edge} (acyclic : Acyclic edges) (nonempty : edges ≠ []) :
    ∃ edge, edge ∈ edges ∧ forall other, other ∈ edges -> other.source ≠ edge.target := by
  apply Classical.byContradiction
  intro none
  -- Otherwise every edge goes on, and going on from one edge to the next comes to a cycle.
  have goesOn : forall id, id ∈ edges.map Edge.target ->
      ∃ next, next ∈ edges.map Edge.target ∧ Function.swap (Leads edges) next id := by
    intro id member
    rcases List.mem_map.mp member with ⟨edge, listed, rfl⟩
    apply Classical.byContradiction
    intro ends
    refine none ⟨edge, listed, fun other otherListed same => ends ?_⟩
    exact ⟨other.target, List.mem_map_of_mem otherListed, other, otherListed, same, rfl⟩
  rcases List.exists_mem_of_ne_nil edges nonempty with ⟨edge, listed⟩
  rcases exists_cycle_behind goesOn (List.mem_map_of_mem listed) with ⟨id, cycle, _⟩
  exact acyclic id (Relation.transGen_swap.mp cycle)

/-- Edges without a cycle can be put in order, each before those that leave
its target. -/
theorem exists_order {edges : List Edge} (acyclic : Acyclic edges) :
    ∃ order : List Edge, order.Perm edges ∧
      order.Pairwise (fun earlier later => earlier.source ≠ later.target) := by
  induction count : edges.length generalizing edges with
  | zero => exact ⟨edges, List.Perm.refl _, by simp [List.eq_nil_of_length_eq_zero count]⟩
  | succ length ih =>
      have nonempty : edges ≠ [] := List.ne_nil_of_length_eq_add_one count
      rcases exists_last acyclic nonempty with ⟨last, listed, free⟩
      have shorter : (edges.erase last).length = length := by
        rw [List.length_erase_of_mem listed, count, Nat.add_sub_cancel]
      rcases ih (acyclic.mono List.erase_subset) shorter with ⟨order, perm, ordered⟩
      refine ⟨order ++ [last], ?_, ?_⟩
      · have moved : (order ++ [last]).Perm (last :: order) := List.perm_append_singleton last order
        exact moved.trans ((perm.cons last).trans (List.perm_cons_erase listed).symm)
      · refine List.pairwise_append.mpr ⟨ordered, List.pairwise_singleton _ _, ?_⟩
        intro earlier member later only
        rw [List.mem_singleton.mp only]
        exact free earlier (List.erase_subset (perm.subset member))

theorem clearInOrder_of_pairwise {order : List Edge} (acyclic : Acyclic order)
    (ordered : order.Pairwise (fun earlier later => earlier.source ≠ later.target)) :
    ClearInOrder order := by
  intro before edge first
  have member : edge ∈ order := first.subset (List.mem_append_right _ List.mem_cons_self)
  have different : edge.source ≠ edge.target :=
    fun same => acyclic edge.source (.single ⟨edge, member, rfl, same.symm⟩)
  apply clear_of_end different
  rintro id ⟨earlier, listed, same, _⟩
  have apart := (List.pairwise_append.mp (ordered.sublist first.sublist)).2.2
  exact apart earlier listed edge List.mem_cons_self same

theorem Sound.perm {registry : Registry} {flow : Flow} (sound : Sound registry flow)
    {order : List Edge} (perm : order.Perm flow.edges) :
    Sound registry { flow with edges := order } where
  acyclic := sound.acyclic.mono perm.subset
  single := by
    intro node input
    rw [(perm.filter _).length_eq]
    exact sound.single node input
  fits := fun edge member => sound.fits edge (perm.subset member)

/-- Every graph that keeps the rules can be drawn in some order of its edges,
at the cost of the literals of the connected inputs. -/
theorem exists_drawing {registry : Registry} {flow : Flow}
    (distinct : (flow.nodes.map Node.id).Nodup) (sound : Sound registry flow) :
    ∃ order drawn, List.Perm order flow.edges ∧ flow.undrawn.draw registry order = .ok drawn ∧
      drawn.edges = order ∧ drawn.viewport = flow.viewport ∧
      List.Forall₂ (Emptied order) flow.nodes drawn.nodes := by
  rcases exists_order sound.acyclic with ⟨order, perm, ordered⟩
  have clear := clearInOrder_of_pairwise (sound.acyclic.mono perm.subset) ordered
  have accepted : ∃ drawn, flow.undrawn.draw registry order = .ok drawn :=
    (sound.perm perm).exists_draw clear
  rcases accepted with ⟨drawn, accepted⟩
  have left := drawnFrom_of_draw accepted
  have emptied : List.Forall₂ (Emptied order) flow.undrawn.nodes drawn.nodes :=
    emptied_of_draw distinct accepted
  exact ⟨order, drawn, perm, accepted, left.edges, left.viewport, emptied⟩

/-- The rerouted flow with a text typed over an edge, and with its edges in an
order that is refused. -/
def meetingFlow : Flow where
  nodes := updateNode "hook" (fun node => node.withInput "Body" "typed") reroutedFlow.nodes
  edges := meetingEdges ++ [firstEdge]
  viewport := none

theorem exists_drawing_meeting :
    (meetingFlow.nodes.map Node.id).Nodup ∧ Sound Catalog.builtin.lookup meetingFlow ∧
      meetingFlow.undrawn.draw Catalog.builtin.lookup meetingFlow.edges
        = .error (.cycleDetected "open" "page") ∧
      ∃ order drawn, List.Perm order meetingFlow.edges ∧
        meetingFlow.undrawn.draw Catalog.builtin.lookup order = .ok drawn ∧
        drawn.edges = order ∧ List.Forall₂ (Emptied order) meetingFlow.nodes drawn.nodes := by
  have distinct : (meetingFlow.nodes.map Node.id).Nodup := by decide
  have reached : (Flow.withEntryPoint "open").afterEdits Catalog.builtin.lookup
      (reroutedSession ++ [.setInput "hook" "Body" "typed"])
        = { meetingFlow with edges := reroutedFlow.edges } := by cbv
  have sound : Sound Catalog.builtin.lookup meetingFlow := by
    have kept := ((Opened.workflow "open").sound Catalog.builtin.lookup).afterEdits
      (reroutedSession ++ [.setInput "hook" "Body" "typed"])
    rw [reached] at kept
    exact kept.perm (by decide)
  rcases exists_drawing distinct sound with ⟨order, drawn, perm, accepted, edges, _, emptied⟩
  exact ⟨distinct, sound, by cbv, order, drawn, perm, accepted, edges, emptied⟩

end FlowPlan
