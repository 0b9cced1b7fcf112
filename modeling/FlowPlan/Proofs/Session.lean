import FlowPlan.Flow.Edit
import FlowPlan.Task.Catalog
import FlowPlan.Proofs.Guard

namespace FlowPlan

/-!
What holds of every flow that an editing session reaches.

Only drawing adds an edge, and the guard looks at the new edge alone.  The
older edges go on fitting because no edit changes the task that an identifier
stands for while an edge is at it: nodes are added behind the others, changed
in their literals only, and taken out together with all their edges.  So the
identifiers may repeat, and an edge that does not fit came with the flow that
the session began on.
-/

/-- The edges of a flow close no cycle, feed every input at most once, and
join ports of the same type on tasks that are known. -/
structure Sound (registry : Registry) (flow : Flow) : Prop where
  acyclic : Acyclic flow.edges
  single : forall node input, (flow.edges.filter (fun edge => edge.feeds node input)).length ≤ 1
  fits : forall edge, edge ∈ flow.edges -> Fits registry flow.nodes edge

/-! ## Edits and the task of a node -/

theorem nodeNamed?_updateNode {id : NodeId} {change : Node -> Node}
    (keepsId : forall node, (change node).id = node.id) (nodes : List Node) (asked : NodeId) :
    nodeNamed? (updateNode id change nodes) asked
      = if asked = id then (nodeNamed? nodes asked).map change else nodeNamed? nodes asked := by
  induction nodes with
  | nil => simp [updateNode, nodeNamed?]
  | cons node rest ih =>
      by_cases head : node.id = id
      · rw [updateNode, if_pos head]
        by_cases found : node.id = asked
        · simp [nodeNamed?, keepsId, head, found.symm.trans head]
        · have other : asked ≠ id := fun same => found (head.trans same.symm)
          simp [nodeNamed?, keepsId, found, other]
      · rw [updateNode, if_neg head]
        by_cases found : node.id = asked
        · have other : asked ≠ id := fun same => head (found.trans same)
          simp [nodeNamed?, found, other]
        · simpa [nodeNamed?, found] using ih

theorem nodeNamed?_eraseP_of_ne {id asked : NodeId} (other : asked ≠ id) (nodes : List Node) :
    nodeNamed? (nodes.eraseP (fun node => node.id == id)) asked = nodeNamed? nodes asked := by
  unfold nodeNamed?
  induction nodes with
  | nil => rfl
  | cons node rest ih =>
      by_cases head : node.id = id
      · have passed : (id == asked) = false := beq_eq_false_iff_ne.mpr other.symm
        simp only [List.eraseP_cons, List.find?_cons, head, beq_self_eq_true, cond_true, passed]
      · have kept : (node.id == id) = false := beq_eq_false_iff_ne.mpr head
        simp only [List.eraseP_cons, List.find?_cons, kept, cond_false, ih]

section Performs

variable {registry : Registry} {nodes : List Node} {id : NodeId} {task : TaskDefinition}

theorem Performs.append (performs : Performs registry nodes id task) (more : List Node) :
    Performs registry (nodes ++ more) id task := by
  rcases performs with ⟨node, found, known⟩
  refine ⟨node, ?_, known⟩
  unfold nodeNamed? at found ⊢
  rw [List.find?_append, found, Option.some_or]

theorem Performs.withInput (performs : Performs registry nodes id task) (changed : NodeId)
    (name value : String) :
    Performs registry (updateNode changed (fun node => node.withInput name value) nodes) id
      task := by
  rcases performs with ⟨node, found, known⟩
  have keepsId : forall node : Node, (node.withInput name value).id = node.id := fun _ => rfl
  rw [Performs, nodeNamed?_updateNode keepsId, found]
  split
  · exact ⟨node.withInput name value, rfl, known⟩
  · exact ⟨node, rfl, known⟩

theorem Performs.remove (performs : Performs registry nodes id task) {removed : NodeId}
    (other : id ≠ removed) :
    Performs registry (nodes.eraseP (fun node => node.id == removed)) id task := by
  rcases performs with ⟨node, found, known⟩
  exact ⟨node, (nodeNamed?_eraseP_of_ne other nodes).trans found, known⟩

end Performs

/-- Literals have no part in whether an edge fits. -/
theorem Fits.withInput {registry : Registry} {nodes : List Node} {edge : Edge}
    (fits : Fits registry nodes edge) (changed : NodeId) (name value : String) :
    Fits registry (updateNode changed (fun node => node.withInput name value) nodes) edge :=
  fits.transfer (fun _ performs => performs.withInput changed name value)
    (fun _ performs => performs.withInput changed name value)

/-! ## What an edit can do -/

/-- All that an edit can make of a flow. -/
inductive Edited (registry : Registry) (flow : Flow) : Flow -> Prop
  | unchanged : Edited registry flow flow
  | added (id : NodeId) (kind : TaskKind) : Edited registry flow (flow.addNode id kind)
  | removed {id : NodeId} {node : Node} {rest : Flow}
      (taken : flow.removeNode? id = some (node, rest)) : Edited registry flow rest
  | typed {id : NodeId} {name value : String} {changed : Flow}
      (accepted : flow.setInput id name value = .ok changed) : Edited registry flow changed
  | drawn {connection : Edge} {changed : Flow}
      (accepted : flow.connect registry connection = .ok changed) : Edited registry flow changed
  | cut {source target : NodeId} {handle : String} {edge : Edge} {rest : Flow}
      (taken : flow.disconnect? source target handle = some (edge, rest)) :
      Edited registry flow rest

theorem edited_ofExcept {registry : Registry} {flow : Flow} {attempt : Except EditError Flow}
    (accepted : forall changed, attempt = .ok changed -> Edited registry flow changed) :
    Edited registry flow (EditReply.ofExcept flow attempt).2 := by
  cases attempt with
  | error error => exact .unchanged
  | ok changed => exact accepted changed rfl

theorem edited_edit (registry : Registry) (flow : Flow) (edit : Edit) :
    Edited registry flow (flow.edit registry edit).2 := by
  cases edit with
  | addNode id kind => exact .added id kind
  | removeNode id =>
      simp only [Flow.edit]
      split
      · rename_i taken
        exact .removed taken
      · exact .unchanged
  | setInput id name value => exact edited_ofExcept (fun _ accepted => .typed accepted)
  | connect connection => exact edited_ofExcept (fun _ accepted => .drawn accepted)
  | disconnect source target handle =>
      simp only [Flow.edit]
      split
      · rename_i taken
        exact .cut taken
      · exact .unchanged

/-- Only an accepted connection adds an edge. -/
theorem Edited.edges {registry : Registry} {flow changed : Flow}
    (edited : Edited registry flow changed) :
    changed.edges.Sublist flow.edges ∨
      ∃ connection, flow.connect registry connection = .ok changed := by
  cases edited with
  | unchanged => exact Or.inl (List.Sublist.refl _)
  | added id kind => exact Or.inl (List.Sublist.refl _)
  | removed taken =>
      rcases Option.map_eq_some_iff.mp taken with ⟨_, _, answer⟩
      cases answer
      exact Or.inl List.filter_sublist
  | typed accepted =>
      unfold Flow.setInput at accepted
      split at accepted
      · cases accepted
      · cases accepted
        exact Or.inl (List.Sublist.refl _)
  | drawn accepted => exact Or.inr ⟨_, accepted⟩
  | cut taken =>
      rcases Option.map_eq_some_iff.mp taken with ⟨_, _, answer⟩
      cases answer
      exact Or.inl List.eraseP_sublist

/-! ## Edges that do not fit -/

/-- The edges of the changed flow fit, apart from those that the flow had
before and that did not fit it. -/
def Upholds (registry : Registry) (flow changed : Flow) : Prop :=
  forall edge, edge ∈ changed.edges ->
    Fits registry changed.nodes edge ∨ (edge ∈ flow.edges ∧ ¬ Fits registry flow.nodes edge)

section Upholding

variable {registry : Registry} {flow changed : Flow}

/-- Edges that were there before have only to go on fitting. -/
theorem upholds_of_kept (fewer : changed.edges ⊆ flow.edges)
    (kept : forall edge, edge ∈ changed.edges -> Fits registry flow.nodes edge ->
      Fits registry changed.nodes edge) : Upholds registry flow changed := by
  intro edge member
  by_cases fits : Fits registry flow.nodes edge
  · exact Or.inl (kept edge member fits)
  · exact Or.inr ⟨fewer member, fits⟩

theorem upholds_refl (registry : Registry) (flow : Flow) : Upholds registry flow flow :=
  upholds_of_kept (List.Subset.refl _) (fun _ _ fits => fits)

theorem Upholds.trans {later : Flow} (first : Upholds registry flow changed)
    (second : Upholds registry changed later) : Upholds registry flow later := by
  intro edge member
  rcases second edge member with fits | ⟨earlier, unfit⟩
  · exact Or.inl fits
  · exact Or.inr ((first edge earlier).resolve_left unfit)

theorem upholds_removeNode {id : NodeId} {node : Node}
    (taken : flow.removeNode? id = some (node, changed)) : Upholds registry flow changed := by
  rcases Option.map_eq_some_iff.mp taken with ⟨_, _, answer⟩
  cases answer
  refine upholds_of_kept List.filter_sublist.subset ?_
  intro edge member fits
  have untouched : edge.touches id = false := by
    simpa using (List.mem_filter.mp member).2
  simp only [Edge.touches, Bool.or_eq_false_iff, beq_eq_false_iff_ne] at untouched
  exact fits.transfer (fun _ performs => performs.remove untouched.1)
    (fun _ performs => performs.remove untouched.2)

theorem upholds_setInput {id : NodeId} {name value : String}
    (accepted : flow.setInput id name value = .ok changed) : Upholds registry flow changed := by
  unfold Flow.setInput at accepted
  split at accepted
  · cases accepted
  · cases accepted
    exact upholds_of_kept (List.Subset.refl _) (fun _ _ fits => fits.withInput id name value)

theorem upholds_connect {connection : Edge}
    (accepted : flow.connect registry connection = .ok changed) :
    Upholds registry flow changed := by
  rcases Flow.connect_eq_ok_iff.mp accepted with ⟨valid, handle, _, _, rfl⟩
  intro edge member
  by_cases fits : Fits registry flow.nodes edge
  · exact Or.inl (fits.withInput connection.target handle "")
  · rcases List.mem_append.mp member with old | new
    · exact Or.inr ⟨old, fits⟩
    · rw [List.mem_singleton.mp new] at fits
      exact absurd (validateConnection_eq_ok_iff.mp valid).1 fits

theorem upholds_disconnect {source target : NodeId} {handle : String} {edge : Edge}
    (taken : flow.disconnect? source target handle = some (edge, changed)) :
    Upholds registry flow changed := by
  rcases Option.map_eq_some_iff.mp taken with ⟨_, _, answer⟩
  cases answer
  exact upholds_of_kept List.eraseP_sublist.subset (fun _ _ fits => fits)

theorem Edited.upholds (edited : Edited registry flow changed) :
    Upholds registry flow changed := by
  cases edited with
  | unchanged => exact upholds_refl registry flow
  | added id kind =>
      exact upholds_of_kept (List.Subset.refl _) (fun _ _ fits =>
        fits.transfer (fun _ performs => performs.append _) (fun _ performs => performs.append _))
  | removed taken => exact upholds_removeNode taken
  | typed accepted => exact upholds_setInput accepted
  | drawn accepted => exact upholds_connect accepted
  | cut taken => exact upholds_disconnect taken

end Upholding

/-! ## What each edit preserves -/

section Preservation

variable {registry : Registry} {flow changed : Flow}

theorem sound_empty (registry : Registry) : Sound registry Flow.empty where
  acyclic := acyclic_nil
  single := fun _ _ => Nat.zero_le 1
  fits := fun _ member => by cases member

/-- Where all edges fit, an edit leaves none that does not. -/
theorem Sound.fits_of_upholds (sound : Sound registry flow)
    (upholds : Upholds registry flow changed) {edge : Edge} (member : edge ∈ changed.edges) :
    Fits registry changed.nodes edge := by
  rcases upholds edge member with fits | ⟨earlier, unfit⟩
  · exact fits
  · exact absurd (sound.fits edge earlier) unfit

/-- Another edge that feeds what the connection feeds would have refused it. -/
theorem filter_feeds_of_unfed {edges : List Edge} {connection : Edge} {handle input : String}
    {node : NodeId} (named : connection.targetHandle = some handle)
    (free : feeder? edges connection.target handle = none)
    (feeds : connection.feeds node input = true) :
    edges.filter (fun edge => edge.feeds node input) = [] := by
  rcases (feeds_iff_of_named named).mp feeds with ⟨rfl, rfl⟩
  exact List.filter_eq_nil_iff.mpr (List.find?_eq_none.mp free)

theorem Sound.connect {connection : Edge} (sound : Sound registry flow)
    (drawn : flow.connect registry connection = .ok changed) : Sound registry changed := by
  have fits : forall edge, edge ∈ changed.edges -> Fits registry changed.nodes edge :=
    fun _ member => sound.fits_of_upholds (upholds_connect drawn) member
  rcases Flow.connect_eq_ok_iff.mp drawn with ⟨valid, handle, named, free, rfl⟩
  refine ⟨?_, ?_, fits⟩
  · exact acyclic_concat_of_validateConnection
      (fun edge member => (sound.fits edge member).endpoints) sound.acyclic valid
  · intro node input
    rw [List.filter_append, List.length_append]
    by_cases feeds : connection.feeds node input = true
    · have unfed : flow.edges.filter (fun edge => edge.feeds node input) = [] :=
        filter_feeds_of_unfed named free feeds
      rw [unfed, List.length_nil, Nat.zero_add]
      exact List.length_filter_le _ [connection]
    · have apart : [connection].filter (fun edge => edge.feeds node input) = [] := by
        simpa using feeds
      rw [apart, List.length_nil, Nat.add_zero]
      exact sound.single node input

theorem Sound.edited (sound : Sound registry flow) (edited : Edited registry flow changed) :
    Sound registry changed := by
  rcases edited.edges with fewer | ⟨connection, drawn⟩
  · exact
      { acyclic := sound.acyclic.mono fewer.subset
        single := fun node input =>
          Nat.le_trans (fewer.filter _).length_le (sound.single node input)
        fits := fun _ member => sound.fits_of_upholds edited.upholds member }
  · exact sound.connect drawn

theorem Sound.addNode (sound : Sound registry flow) (id : NodeId) (kind : TaskKind) :
    Sound registry (flow.addNode id kind) :=
  sound.edited (.added id kind)

end Preservation

/-! ## Whole sessions -/

theorem Sound.afterEdits {registry : Registry} {flow : Flow} (sound : Sound registry flow)
    (edits : List Edit) : Sound registry (flow.afterEdits registry edits) := by
  induction edits generalizing flow with
  | nil => exact sound
  | cons edit rest ih => exact ih (sound.edited (edited_edit registry flow edit))

theorem upholds_afterEdits (registry : Registry) (flow : Flow) (edits : List Edit) :
    Upholds registry flow (flow.afterEdits registry edits) := by
  induction edits generalizing flow with
  | nil => exact upholds_refl registry flow
  | cons edit rest ih => exact (edited_edit registry flow edit).upholds.trans (ih _)

/-- Every session keeps the flow sound, whether it starts from an empty canvas
or from a new workflow, and whatever identifiers its nodes are given. -/
theorem sound_of_session (registry : Registry) (edits : List Edit) :
    Sound registry (Flow.empty.afterEdits registry edits) ∧
      forall id, Sound registry ((Flow.withEntryPoint id).afterEdits registry edits) := by
  constructor
  · exact (sound_empty registry).afterEdits edits
  · intro id
    exact ((sound_empty registry).addNode id .launchBrowser).afterEdits edits

/-- The edge back from the second step would close a cycle, and is refused. -/
example :
    ((Flow.withEntryPoint "open").afterEdits Catalog.builtin.lookup
      [.addNode "first" .navigateUrl, .addNode "second" .navigateUrl,
        .connect ((Edge.between "first" "second").withHandles "Web page" "Web page"),
        .connect ((Edge.between "second" "first").withHandles "Web page" "Web page")]).edges
      = [(Edge.between "first" "second").withHandles "Web page" "Web page"] := by
  cbv

end FlowPlan
