import FlowPlan.Proofs.Agreement

namespace FlowPlan

/-!
Drawing the edges of a flow anew.

An edge may have been accepted beside edges and nodes that are gone by now.
What was behind its target was a tree, and less of a tree is a tree again, so
the edge is accepted as well beside those that are left.  Drawn in the order in
which a session has kept them, all its edges are therefore accepted once more.
-/

namespace Flow

/-- The flow without its edges. -/
def undrawn (flow : Flow) : Flow := { flow with edges := [] }

/-- Draw one edge after the other. -/
def draw (registry : Registry) (flow : Flow) (edges : List Edge) : Except EditError Flow :=
  edges.foldlM (Flow.connect registry) flow

end Flow

/-! ## Accepting with less -/

/-- If the first flow accepts the connection, so does the second. -/
structure AcceptsToo (registry : Registry) (flow other : Flow) (connection : Edge) : Prop where
  valid : flow.validate registry connection = .ok () -> other.validate registry connection = .ok ()
  drawn : (∃ changed, flow.connect registry connection = .ok changed) ->
    ∃ changed, other.connect registry connection = .ok changed

section Accepting

variable {registry : Registry} {flow fewer : Flow} {connection : Edge}

theorem feeder?_eq_none_of_subset {edges others : List Edge} (subset : others ⊆ edges)
    {node : NodeId} {input : String} (free : feeder? edges node input = none) :
    feeder? others node input = none := by
  rw [feeder?, List.find?_eq_none] at free ⊢
  exact fun edge member => free edge (subset member)

theorem acceptsToo_of_fewer (ids : fewer.nodes.map Node.id ⊆ flow.nodes.map Node.id)
    (edges : fewer.edges ⊆ flow.edges)
    (fits : Fits registry flow.nodes connection -> Fits registry fewer.nodes connection) :
    AcceptsToo registry flow fewer connection := by
  have valid : flow.validate registry connection = .ok () ->
      fewer.validate registry connection = .ok () := by
    intro accepted
    rcases validateConnection_eq_ok_iff.mp accepted with ⟨fitting, clear⟩
    exact validateConnection_eq_ok_iff.mpr
      ⟨fits fitting, clear.mono (DependencyGraph.linked_mono ids edges)⟩
  refine ⟨valid, ?_⟩
  rintro ⟨_, drawn⟩
  rcases Flow.connect_eq_ok_iff.mp drawn with ⟨accepted, handle, named, free, _⟩
  exact ⟨_, Flow.connect_eq_ok_iff.mpr
    ⟨valid accepted, handle, named, feeder?_eq_none_of_subset edges free, rfl⟩⟩

/-- Taking out edges refuses nothing that was accepted. -/
theorem acceptsToo_of_edges {edges : List Edge} (subset : edges ⊆ flow.edges) :
    AcceptsToo registry flow { flow with edges := edges } connection :=
  acceptsToo_of_fewer (List.Subset.refl _) subset (fun fits => fits)

/-- Taking out a node with its edges refuses nothing that was accepted between
other nodes. -/
theorem acceptsToo_of_removeNode {id : NodeId} {node : Node}
    (taken : flow.removeNode? id = some (node, fewer)) (elsewhere : connection.touches id = false) :
    AcceptsToo registry flow fewer connection := by
  rcases Option.map_eq_some_iff.mp taken with ⟨_, _, answer⟩
  cases answer
  simp only [Edge.touches, Bool.or_eq_false_iff, beq_eq_false_iff_ne] at elsewhere
  refine acceptsToo_of_fewer ?_ List.filter_sublist.subset ?_
  · exact (List.eraseP_sublist.map Node.id).subset
  · exact fun fits => fits.transfer (fun _ performs => performs.remove elsewhere.1)
      (fun _ performs => performs.remove elsewhere.2)

end Accepting

/-! ## Edges in the order of a session -/

/-- Each edge is clear of the edges before it. -/
def ClearInOrder (edges : List Edge) : Prop :=
  forall before edge, before ++ [edge] <+: edges ->
    Clear (Leads before) edge.source edge.target

theorem clearInOrder_nil : ClearInOrder [] := by
  intro before edge first
  exact absurd (List.prefix_nil.mp first) (by simp)

theorem ClearInOrder.sublist {fewer edges : List Edge} (clear : ClearInOrder edges)
    (kept : fewer.Sublist edges) : ClearInOrder fewer := by
  intro before edge first
  rcases List.append_sublist_iff.mp (first.sublist.trans kept) with
    ⟨front, back, rfl, earlier, here⟩
  rcases List.append_of_mem (List.singleton_sublist.mp here) with ⟨between, after, rfl⟩
  have place : (front ++ between) ++ [edge] <+: front ++ (between ++ edge :: after) :=
    ⟨after, by simp⟩
  refine (clear _ edge place).mono (leads_mono ?_)
  exact fun other member => List.mem_append_left _ (earlier.subset member)

theorem ClearInOrder.concat {edges : List Edge} {edge : Edge} (clear : ClearInOrder edges)
    (last : Clear (Leads edges) edge.source edge.target) : ClearInOrder (edges ++ [edge]) := by
  intro before other first
  rcases List.prefix_concat_iff.mp first with whole | earlier
  · rcases List.append_inj' whole rfl with ⟨rfl, same⟩
    cases same
    exact last
  · exact clear before other earlier

section Sessions

variable {registry : Registry} {flow changed : Flow}

theorem Sound.inside (sound : Sound registry flow) (edge : Edge) (member : edge ∈ flow.edges) :
    edge.source ∈ flow.nodes.map Node.id ∧ edge.target ∈ flow.nodes.map Node.id :=
  (sound.fits edge member).endpoints

theorem ClearInOrder.edited (clear : ClearInOrder flow.edges) (sound : Sound registry flow)
    (edited : Edited registry flow changed) : ClearInOrder changed.edges := by
  rcases edited.edges with fewer | ⟨connection, drawn⟩
  · exact clear.sublist fewer
  · rcases Flow.connect_eq_ok_iff.mp drawn with ⟨valid, _, _, _, rfl⟩
    have last := (validateConnection_eq_ok_iff.mp valid).2
    rw [DependencyGraph.linked_eq_leads sound.inside] at last
    exact clear.concat last

theorem ClearInOrder.afterEdits (clear : ClearInOrder flow.edges) (sound : Sound registry flow)
    (edits : List Edit) : ClearInOrder (flow.afterEdits registry edits).edges := by
  induction edits generalizing flow with
  | nil => exact clear
  | cons edit rest ih =>
      have edited := edited_edit registry flow edit
      exact ih (clear.edited sound edited) (sound.edited edited)

theorem Opened.edges_eq_nil (opened : Opened flow) : flow.edges = [] := by
  cases opened <;> rfl

end Sessions

/-! ## What drawing leaves -/

section Drawn

variable {registry : Registry} {flow drawn : Flow} {edges : List Edge}

theorem Flow.draw_cons_eq_ok_iff {edge : Edge} :
    flow.draw registry (edge :: edges) = .ok drawn ↔
      ∃ first, flow.connect registry edge = .ok first ∧ first.draw registry edges = .ok drawn := by
  rw [Flow.draw, List.foldlM_cons, bind_eq_ok_iff]
  rfl

theorem Flow.draw_concat_eq_ok_iff {edge : Edge} :
    flow.draw registry (edges ++ [edge]) = .ok drawn ↔
      ∃ before, flow.draw registry edges = .ok before ∧
        before.connect registry edge = .ok drawn := by
  rw [Flow.draw, List.foldlM_append, bind_eq_ok_iff]
  simp only [List.foldlM_cons, List.foldlM_nil, bind_pure]
  rfl

/-- Drawing appends the edges, and leaves the tasks of nodes and the view. -/
structure DrawnFrom (registry : Registry) (flow : Flow) (edges : List Edge) (drawn : Flow) :
    Prop where
  edges : drawn.edges = flow.edges ++ edges
  viewport : drawn.viewport = flow.viewport
  fits : forall edge, Fits registry flow.nodes edge -> Fits registry drawn.nodes edge

theorem drawnFrom_of_draw (accepted : flow.draw registry edges = .ok drawn) :
    DrawnFrom registry flow edges drawn := by
  induction edges generalizing flow with
  | nil =>
      cases accepted
      exact ⟨(List.append_nil _).symm, rfl, fun _ fits => fits⟩
  | cons edge rest ih =>
      rcases Flow.draw_cons_eq_ok_iff.mp accepted with ⟨first, connected, later⟩
      have drawnLater := ih later
      rcases Flow.connect_eq_ok_iff.mp connected with ⟨_, handle, _, _, rfl⟩
      constructor
      case edges => rw [drawnLater.edges, List.append_assoc, List.singleton_append]
      case viewport => exact drawnLater.viewport
      case fits => exact fun other fits => drawnLater.fits other (fits.withInput edge.target handle "")

/-- An edge that fits names the input that it feeds. -/
theorem Fits.feeds_target {nodes : List Node} {edge : Edge} (fits : Fits registry nodes edge) :
    ∃ handle, edge.targetHandle = some handle ∧ edge.feeds edge.target handle = true := by
  rcases fits with ⟨_, _, joins, _⟩
  rcases joins.accepted with ⟨_, handle, _, named, _⟩
  exact ⟨handle, named, (feeds_iff_of_named named).mpr ⟨rfl, rfl⟩⟩

/-- No edge before feeds the input that an edge feeds. -/
theorem Sound.unfed_before (sound : Sound registry flow) {before : List Edge} {edge : Edge}
    (first : before ++ [edge] <+: flow.edges) {node : NodeId} {input : String}
    (feeds : edge.feeds node input = true) : feeder? before node input = none := by
  have atMostOne := Nat.le_trans (first.sublist.filter _).length_le (sound.single node input)
  rw [List.filter_append, List.filter_singleton, feeds, cond_true, List.length_append] at atMostOne
  have none : before.filter (fun other => other.feeds node input) = [] :=
    List.eq_nil_of_length_eq_zero (Nat.le_zero.mp (Nat.le_of_succ_le_succ atMostOne))
  exact List.find?_eq_none.mpr (List.filter_eq_nil_iff.mp none)

/-- The edges of a sound flow are accepted one after the other where each of
them is clear of those before it. -/
theorem Sound.exists_draw (sound : Sound registry flow) (clear : ClearInOrder flow.edges) :
    ∃ drawn, flow.undrawn.draw registry flow.edges = .ok drawn := by
  have drawnBefore : forall edges, edges <+: flow.edges ->
      ∃ drawn, flow.undrawn.draw registry edges = .ok drawn := by
    intro edges first
    induction edges using List.reverseRecOn with
    | nil => exact ⟨flow.undrawn, rfl⟩
    | append_singleton before edge ih =>
        rcases ih ((List.prefix_append before [edge]).trans first) with ⟨earlier, accepted⟩
        have left := drawnFrom_of_draw accepted
        have listed : forall other, other ∈ before ++ [edge] -> Fits registry earlier.nodes other :=
          fun other member => left.fits other (sound.fits other (first.subset member))
        have fits := listed edge (List.mem_append_right _ List.mem_cons_self)
        have edges : earlier.edges = before := left.edges
        have linked : (DependencyGraph.ofDocument earlier.nodes earlier.edges).Linked
            = Leads before := by
          rw [edges]
          exact DependencyGraph.linked_eq_leads (fun other member =>
            (listed other (List.mem_append_left _ member)).endpoints)
        have valid : earlier.validate registry edge = .ok () :=
          validateConnection_eq_ok_iff.mpr ⟨fits, linked ▸ clear before edge first⟩
        rcases fits.feeds_target with ⟨handle, named, feeds⟩
        have free : feeder? earlier.edges edge.target handle = none := by
          rw [edges]
          exact sound.unfed_before first feeds
        exact ⟨_, Flow.draw_concat_eq_ok_iff.mpr
          ⟨earlier, accepted, Flow.connect_eq_ok_iff.mpr ⟨valid, handle, named, free, rfl⟩⟩⟩
  exact drawnBefore flow.edges (List.prefix_refl _)

end Drawn

/-- The edges of a session can be drawn anew in the order in which it has kept
them.  A flow accepts what it accepted with more edges, or with one more node
that the connection does not touch. -/
theorem redrawn_of_session (registry : Registry) {start : Flow} (opened : Opened start)
    (edits : List Edit) :
    (∃ drawn,
      (start.afterEdits registry edits).undrawn.draw registry
          (start.afterEdits registry edits).edges = .ok drawn ∧
        drawn.edges = (start.afterEdits registry edits).edges) ∧
    forall (flow : Flow) (connection : Edge),
      (forall edges, edges ⊆ flow.edges ->
        AcceptsToo registry flow { flow with edges := edges } connection) ∧
      forall id node rest, flow.removeNode? id = some (node, rest) ->
        connection.touches id = false -> AcceptsToo registry flow rest connection := by
  constructor
  · have sound := opened.sound registry
    have unopened : ClearInOrder start.edges := by
      rw [opened.edges_eq_nil]
      exact clearInOrder_nil
    rcases (sound.afterEdits edits).exists_draw (unopened.afterEdits sound edits) with
      ⟨drawn, accepted⟩
    exact ⟨drawn, accepted, (drawnFrom_of_draw accepted).edges⟩
  · intro flow connection
    exact ⟨fun _ subset => acceptsToo_of_edges subset,
      fun _ _ _ taken elsewhere => acceptsToo_of_removeNode taken elsewhere⟩

def firstEdge : Edge := (Edge.between "open" "page").withHandles "Web page" "Web page"

def htmlEdge (target : NodeId) : Edge := (Edge.between "page" target).withHandles "Html" "Html"

def hookEdge (source : NodeId) (input : String) : Edge :=
  (Edge.between source "hook").withHandles "Extracted text" input

/-- Two ways from a page to a webhook. -/
def meetingEdges : List Edge :=
  [htmlEdge "title", htmlEdge "text", hookEdge "title" "Target URL", hookEdge "text" "Body"]

/-- The edge into the page is refused until one of the two ways behind it is
cut, and the cut edge is then drawn again. -/
def reroutedSession : List Edit :=
  [.addNode "page" .pageToHtml, .addNode "title" .extractTextFromElement,
      .addNode "text" .extractTextFromElement, .addNode "hook" .deliverViaWebhook]
    ++ meetingEdges.map Edit.connect
    ++ [.connect firstEdge, .disconnect "text" "hook" "Body", .connect firstEdge,
      .connect (hookEdge "text" "Body")]

def reroutedFlow : Flow where
  nodes :=
    [Node.blank "open" "LAUNCH_BROWSER", (Node.blank "page" "PAGE_TO_HTML").withInput "Web page" "",
      (Node.blank "title" "EXTRACT_TEXT_FROM_ELEMENT").withInput "Html" "",
      (Node.blank "text" "EXTRACT_TEXT_FROM_ELEMENT").withInput "Html" "",
      ((Node.blank "hook" "DELIVER_VIA_WEBHOOK").withInput "Target URL" "").withInput "Body" ""]
  edges :=
    [htmlEdge "title", htmlEdge "text", hookEdge "title" "Target URL", firstEdge,
      hookEdge "text" "Body"]
  viewport := none

/-- Its edges are accepted in the order kept, though not with the edge into
the page at the end. -/
theorem redrawn_rerouted :
    Opened (Flow.withEntryPoint "open") ∧
      (Flow.withEntryPoint "open").afterEdits Catalog.builtin.lookup reroutedSession
        = reroutedFlow ∧
      (∃ drawn,
        reroutedFlow.undrawn.draw Catalog.builtin.lookup reroutedFlow.edges = .ok drawn ∧
          drawn.edges = reroutedFlow.edges) ∧
      reroutedFlow.undrawn.draw Catalog.builtin.lookup (meetingEdges ++ [firstEdge])
        = .error (.cycleDetected "open" "page") := by
  have reached : (Flow.withEntryPoint "open").afterEdits Catalog.builtin.lookup reroutedSession
      = reroutedFlow := by cbv
  have redrawn := (redrawn_of_session Catalog.builtin.lookup (.workflow "open")
    reroutedSession).1
  rw [reached] at redrawn
  exact ⟨.workflow "open", reached, redrawn, by cbv⟩

end FlowPlan
