import FlowPlan.Proofs.Rounds
import Mathlib.Data.List.Perm.Basic

namespace FlowPlan

/-!
How the edges of a document show in an answer.

Two lists of edges are compiled side by side.  A round reads the edges in two
ways: the source of the first edge into an input, and whether everything linked
into a node is planned.  The second asks all neighbours alike, so the order in
which the graph lists them is lost there.  Lists that agree on first sources
and on which nodes are linked make the same rounds, and so the same answer,
with everything in it in the same place.
-/

variable {registry : Registry} {nodes : List Node} {edges others : List Edge}

/-- Each input is fed from the same node first, if at all, and the same nodes
of the document are joined. -/
structure SameSupply (nodes : List Node) (edges others : List Edge) : Prop where
  sources : forall id, id ∈ nodes.map Node.id -> forall input,
    (feeder? others id input).map Edge.source = (feeder? edges id input).map Edge.source
  ends : forall pair, pair ∈ (innerEdges nodes others).map Edge.ends ↔
    pair ∈ (innerEdges nodes edges).map Edge.ends

/-- At most one edge feeds each input of the document. -/
def FedOnce (nodes : List Node) (edges : List Edge) : Prop :=
  forall id, id ∈ nodes.map Node.id -> forall input,
    (edges.filter (fun edge => edge.feeds id input)).length ≤ 1

/-! ## The same supply, the same answer -/

namespace SameSupply

variable (supply : SameSupply nodes edges others)

include supply

theorem missingInputs_eq {node : Node} (listed : node ∈ nodes) (planned : List NodeId) :
    missingInputs registry others planned node = missingInputs registry edges planned node :=
  missingInputs_of_sources (fun _ _ input _ _ =>
    supply.sources node.id (List.mem_map_of_mem listed) input.name)

theorem mem_incomers_iff {source target : NodeId} :
    source ∈ (DependencyGraph.ofDocument nodes others).incomers target ↔
      source ∈ (DependencyGraph.ofDocument nodes edges).incomers target := by
  rw [DependencyGraph.mem_incomers, DependencyGraph.mem_incomers,
    DependencyGraph.links_ofDocument, DependencyGraph.links_ofDocument, List.mem_eraseDups,
    List.mem_eraseDups]
  exact supply.ends (source, target)

/-- A node is placed in a round of the one list exactly where it is placed in
the same round of the other. -/
theorem slotFor?_eq {node : Node} (listed : node ∈ nodes) (planned : List NodeId) :
    slotFor? registry others (DependencyGraph.ofDocument nodes others) planned node
      = slotFor? registry edges (DependencyGraph.ofDocument nodes edges) planned node := by
  have settled : ((DependencyGraph.ofDocument nodes others).incomers node.id).all planned.contains
      = ((DependencyGraph.ofDocument nodes edges).incomers node.id).all planned.contains := by
    rw [Bool.eq_iff_iff, List.all_eq_true, List.all_eq_true]
    simp only [supply.mem_incomers_iff]
  rw [slotFor?, slotFor?, supply.missingInputs_eq listed, settled]

theorem compile_eq : compile registry nodes others = compile registry nodes edges := by
  cases found : entryPoint? registry nodes with
  | none => rw [compile_of_no_entry found, compile_of_no_entry found]
  | some entry =>
      have rounds : agenda registry nodes others entry = agenda registry nodes edges entry :=
        agenda_congr (supply.missingInputs_eq (entry_mem found) _)
          (fun planned _ _ listed _ => supply.slotFor?_eq listed planned)
      simp only [compile, found, rounds]

end SameSupply

/-! ## Edges in another order -/

/-- Nothing feeds an input that no edge names. -/
theorem filter_feeds_eq_nil {id : NodeId} {input : String}
    (unnamed : forall edge, edge ∈ edges -> edge.targetHandle ≠ some input) :
    edges.filter (fun edge => edge.feeds id input) = [] := by
  apply List.filter_eq_nil_iff.mpr
  intro edge member feeds
  exact unnamed edge member ((edge.feeds_eq_true_iff id input).mp feeds).2

/-- What an order of the edges decides is the first of several edges into one
input.  Where there is only one, the order decides nothing. -/
theorem feeder?_perm (perm : List.Perm edges others) {id : NodeId} {input : String}
    (once : (edges.filter (fun edge => edge.feeds id input)).length ≤ 1) :
    feeder? others id input = feeder? edges id input := by
  have feeding := perm.filter (fun edge => edge.feeds id input)
  have same : others.filter (fun edge => edge.feeds id input)
      = edges.filter (fun edge => edge.feeds id input) := by
    cases feeders : edges.filter (fun edge => edge.feeds id input) with
    | nil =>
        rw [feeders] at feeding
        exact feeding.nil_eq.symm
    | cons edge rest =>
        rw [feeders, List.length_cons] at once
        have alone : rest = [] := List.length_eq_zero_iff.mp (by omega)
        rw [feeders, alone] at feeding
        rw [alone]
        exact List.perm_singleton.mp feeding.symm
  rw [feeder?, feeder?, ← List.head?_filter, ← List.head?_filter, same]

theorem FedOnce.sameSupply (once : FedOnce nodes edges) (perm : List.Perm edges others) :
    SameSupply nodes edges others where
  sources := fun id known input =>
    congrArg (Option.map Edge.source) (feeder?_perm perm (once id known input))
  ends := fun _ => ((perm.filter _).map Edge.ends).mem_iff.symm

/-- Lists of edges with the same supply have the same answer, down to the order
of phases, nodes, reports and names.  In particular the order of the edges is of
no account where no input is fed twice. -/
theorem compile_of_sameSupply (registry : Registry) (nodes : List Node) (edges others : List Edge) :
    (SameSupply nodes edges others ->
      compile registry nodes others = compile registry nodes edges) ∧
    (FedOnce nodes edges -> List.Perm edges others ->
      compile registry nodes others = compile registry nodes edges) :=
  ⟨fun supply => supply.compile_eq, fun once perm => (once.sameSupply perm).compile_eq⟩

def meetingNodes : List Node :=
  [Node.blank "start" "START", Node.blank "left" "STEP", Node.blank "right" "STEP",
    Node.blank "meet" "STEP"]

/-- Two of these edges come second at their input, one is parallel to another. -/
def crossingEdges : List Edge :=
  [joined "start" "left" "in", joined "right" "left" "in", joined "start" "right" "in",
    joined "absent" "right" "in", Edge.between "start" "right", joined "left" "meet" "in",
    joined "right" "meet" "extra"]

/-- The same supply through other ports, in another order. -/
def reroutedEdges : List Edge :=
  [joined "right" "meet" "extra", ⟨"start", "right", none, some "in"⟩, Edge.between "right" "left",
    ⟨"left", "meet", some "elsewhere", some "in"⟩, joined "start" "left" "in"]

theorem compile_of_sameSupply_rerouted :
    SameSupply meetingNodes crossingEdges reroutedEdges ∧ FedOnce meetingNodes reroutedEdges ∧
    List.Perm reroutedEdges reroutedEdges.reverse ∧
    compile sampleTasks meetingNodes crossingEdges
      = .ok ⟨[⟨1, [Node.blank "start" "START"]⟩,
          ⟨2, [Node.blank "left" "STEP", Node.blank "right" "STEP"]⟩,
          ⟨3, [Node.blank "meet" "STEP"]⟩]⟩ ∧
    compile sampleTasks meetingNodes reroutedEdges
      = compile sampleTasks meetingNodes crossingEdges ∧
    compile sampleTasks meetingNodes reroutedEdges.reverse
      = compile sampleTasks meetingNodes reroutedEdges := by
  have inputs : forall input : String, input ∉ ["in", "extra"] ->
      (forall id, crossingEdges.filter (fun edge => edge.feeds id input) = []) ∧
      (forall id, reroutedEdges.filter (fun edge => edge.feeds id input) = []) := by
    intro input other
    have handles : forall edge, edge ∈ crossingEdges ++ reroutedEdges ->
        forall named, edge.targetHandle = some named -> named ∈ ["in", "extra"] := by decide
    constructor
    · exact fun id => filter_feeds_eq_nil (fun edge member named =>
        other (handles edge (List.mem_append_left _ member) input named))
    · exact fun id => filter_feeds_eq_nil (fun edge member named =>
        other (handles edge (List.mem_append_right _ member) input named))
  have supply : SameSupply meetingNodes crossingEdges reroutedEdges := by
    constructor
    case sources =>
      have fed : forall id, id ∈ meetingNodes.map Node.id -> forall input,
          input ∈ ["in", "extra"] -> (feeder? reroutedEdges id input).map Edge.source
            = (feeder? crossingEdges id input).map Edge.source := by decide
      intro id known input
      by_cases named : input ∈ ["in", "extra"]
      · exact fed id known input named
      · rw [feeder?, feeder?, ← List.head?_filter, ← List.head?_filter,
          (inputs input named).1 id, (inputs input named).2 id]
    case ends =>
      have both : (forall pair, pair ∈ (innerEdges meetingNodes reroutedEdges).map Edge.ends ->
            pair ∈ (innerEdges meetingNodes crossingEdges).map Edge.ends) ∧
          (forall pair, pair ∈ (innerEdges meetingNodes crossingEdges).map Edge.ends ->
            pair ∈ (innerEdges meetingNodes reroutedEdges).map Edge.ends) := by decide
      exact fun pair => ⟨both.1 pair, both.2 pair⟩
  have once : FedOnce meetingNodes reroutedEdges := by
    have fed : forall id, id ∈ meetingNodes.map Node.id -> forall input,
        input ∈ ["in", "extra"] ->
          (reroutedEdges.filter (fun edge => edge.feeds id input)).length ≤ 1 := by decide
    intro id known input
    by_cases named : input ∈ ["in", "extra"]
    · exact fed id known input named
    · rw [(inputs input named).2 id]
      exact Nat.zero_le 1
  have perm : List.Perm reroutedEdges reroutedEdges.reverse := (List.reverse_perm _).symm
  exact ⟨supply, once, perm, by rfl,
    (compile_of_sameSupply sampleTasks meetingNodes crossingEdges reroutedEdges).1 supply,
    (compile_of_sameSupply sampleTasks meetingNodes reroutedEdges _).2 once perm⟩

end FlowPlan
