import FlowPlan.Command
import FlowPlan.Proofs.Phases
import FlowPlan.Proofs.Reading
import FlowPlan.Proofs.Wire

namespace FlowPlan

/-!
The text of an outcome.

What planning a document prints is read back as the outcome of compiling it,
in either layout and whatever stands in the texts of the document.
-/

namespace Json

/-! ## Exact values -/

theorem areExact_iff {items : List Json} :
    areExact items = true ↔ forall item, item ∈ items -> item.isExact = true := by
  induction items with
  | nil => simp [areExact]
  | cons item items ih => simp [areExact, ih]

theorem isExact_array {Value : Type} {encode : Value -> Json} {values : List Value}
    (each : forall value, value ∈ values -> (encode value).isExact = true) :
    (Json.array (values.map encode)).isExact = true := by
  rw [isExact, areExact_iff]
  intro item member
  rcases List.mem_map.mp member with ⟨value, among, rfl⟩
  exact each value among

theorem isExact_record {members : List (String × Json)}
    (each : forall member, member ∈ members -> member.2.isExact = true) :
    (record members).isExact = true := by
  rw [record, isExact]
  induction members with
  | nil => rfl
  | cons member members ih =>
      rw [List.map_cons, areExactMembers, each member List.mem_cons_self,
        ih (fun other among => each other (List.mem_cons_of_mem _ among))]
      rfl

theorem isExact_text (content : String) : (text content).isExact = true := rfl

theorem isExact_natural {value : Nat} (word : value < Word.unsignedCount) :
    (natural value).isExact = true := by
  simp [natural, isExact, JsonNumber.isWord]
  omega

mutual

/-- What a text carries exactly can also be read whole. -/
theorem isSound_of_isExact : forall {value : Json}, value.isExact = true -> value.isSound = true
  | .null, _ => rfl
  | .bool _, _ => rfl
  | .number (.integer _), _ => rfl
  | .number (.float _), carried => by
      rw [isExact] at carried
      exact absurd carried Bool.false_ne_true
  | .string _, carried => carried
  | .array _, carried => areSound_of_areExact carried
  | .object _, carried => areSoundMembers_of_areExactMembers carried

theorem areSound_of_areExact : forall {items : List Json},
    areExact items = true -> areSound items = true
  | [], _ => rfl
  | item :: items, carried => by
      rw [areExact, Bool.and_eq_true] at carried
      rw [areSound, isSound_of_isExact carried.1, areSound_of_areExact carried.2]
      rfl

theorem areSoundMembers_of_areExactMembers : forall {members : List (Option String × Json)},
    areExactMembers members = true -> areSoundMembers members = true
  | [], _ => rfl
  | (name, value) :: members, carried => by
      rw [areExactMembers, Bool.and_eq_true, Bool.and_eq_true] at carried
      rw [areSoundMembers, carried.1.1, isSound_of_isExact carried.1.2,
        areSoundMembers_of_areExactMembers carried.2]
      rfl

end

theorem depth_array_le {Value : Type} {encode : Value -> Json} {values : List Value} {bound : Nat}
    (each : forall value, (encode value).depth ≤ bound) :
    (Json.array (values.map encode)).depth ≤ bound + 1 := by
  rw [depth]
  apply Nat.succ_le_succ
  induction values with
  | nil => exact Nat.zero_le bound
  | cons value values ih =>
      rw [List.map_cons, depthOfItems]
      exact Nat.max_le.mpr ⟨each value, ih⟩

theorem depth_record_le {members : List (String × Json)} {bound : Nat}
    (each : forall member, member ∈ members -> member.2.depth ≤ bound) :
    (record members).depth ≤ bound + 1 := by
  rw [record, depth]
  apply Nat.succ_le_succ
  induction members with
  | nil => exact Nat.zero_le bound
  | cons member members ih =>
      rw [List.map_cons, depthOfMembers]
      exact Nat.max_le.mpr ⟨each member List.mem_cons_self,
        ih (fun other among => each other (List.mem_cons_of_mem _ among))⟩

@[simp] theorem depth_text (content : String) : (text content).depth = 0 := rfl

end Json

/-! ## Documents and plans -/

theorem Dictionary.isExact_toJson (literals : Dictionary String) :
    literals.toJson.isExact = true := by
  apply Json.isExact_record
  intro member listed
  rcases List.mem_map.mp listed with ⟨entry, _, rfl⟩
  exact Json.isExact_text entry.2

theorem Node.isExact_toJson (node : Node) : node.toJson.isExact = true := by
  apply Json.isExact_record
  simp [Json.isExact_text, Dictionary.isExact_toJson]

theorem Phase.isExact_toJson {phase : Phase} (word : phase.number < Word.unsignedCount) :
    phase.toJson.isExact = true := by
  have nodes := Json.isExact_array (fun node (_ : node ∈ phase.nodes) => node.isExact_toJson)
  apply Json.isExact_record
  simp [Json.isExact_natural word, nodes]

theorem Plan.isExact_toJson {plan : Plan} (numbered : plan.Numbered) :
    plan.toJson.isExact = true :=
  Json.isExact_array (fun phase member => Phase.isExact_toJson (numbered phase member))

/-! ## Errors -/

theorem Json.isExact_texts (contents : List String) :
    (Json.array (contents.map Json.text)).isExact = true :=
  Json.isExact_array (fun content _ => Json.isExact_text content)

theorem Json.list?_texts (contents : List String) :
    (Json.array (contents.map Json.text)).list? Json.text? = some contents :=
  Json.list?_array (fun content _ => Json.text?_text content)

theorem Json.depth_texts_le (contents : List String) :
    (Json.array (contents.map Json.text)).depth ≤ 1 :=
  Json.depth_array_le (fun _ => Nat.le_refl 0)

namespace InvalidElement

theorem ofJson?_toJson (element : InvalidElement) : ofJson? element.toJson = some element := by
  simp [ofJson?, toJson, Json.fields?_record, Json.Fields.required?, Json.list?_texts]

theorem isExact_toJson (element : InvalidElement) : element.toJson.isExact = true := by
  apply Json.isExact_record
  simp [Json.isExact_text, Json.isExact_texts]

theorem depth_toJson_le (element : InvalidElement) : element.toJson.depth ≤ 2 := by
  have inputs := Json.depth_texts_le element.inputs
  apply Json.depth_record_le
  simp [inputs]

end InvalidElement

namespace PlanError

theorem isExact_toJson (error : PlanError) : error.toJson.isExact = true := by
  cases error with
  | noEntryPoint => rfl
  | invalidInputs elements =>
      have each := Json.isExact_array
        (fun element (_ : element ∈ elements) => element.isExact_toJson)
      apply Json.isExact_record
      simp [Json.isExact_text, each]
  | unreachableNodes ids =>
      apply Json.isExact_record
      simp [Json.isExact_text, Json.isExact_texts]

theorem depth_toJson_le (error : PlanError) : error.toJson.depth ≤ 4 := by
  cases error with
  | noEntryPoint => decide
  | invalidInputs elements =>
      have each : (Json.array (elements.map InvalidElement.toJson)).depth ≤ 3 :=
        Json.depth_array_le InvalidElement.depth_toJson_le
      apply Json.depth_record_le
      simp [each]
  | unreachableNodes ids =>
      have each : (Json.array (ids.map Json.text)).depth ≤ 3 :=
        Nat.le_trans (Json.depth_texts_le ids) (by decide)
      apply Json.depth_record_le
      simp [each]

/-- The kind of an error stands apart from its other fields. -/
theorem kind?_record (kind : String) {rest : List (String × Json)}
    (distinct : ((("type", Json.text kind) :: rest).map Prod.fst).Nodup) :
    kind? (.record (("type", .text kind) :: rest)) = some (kind, .record rest) := by
  have fields := Json.fields?_record distinct ["type"]
  have others := Json.filter_members_cons distinct
  rw [Json.record] at fields
  rw [Json.record, Json.record, kind?, fields, others]
  simp [Json.Fields.required?]

theorem ofJsonAt?_toJson (error : PlanError) {level : Nat} (shallow : level + 4 ≤ Json.deepest) :
    ofJsonAt? level error.toJson = some error := by
  have sound := Json.isSound_of_isExact error.isExact_toJson
  have deep := error.depth_toJson_le
  rw [ofJsonAt?, sound, if_pos (by simp; omega)]
  cases error with
  | noEntryPoint => rfl
  | invalidInputs elements =>
      have each := Json.list?_array
        (fun element (_ : element ∈ elements) => element.ofJson?_toJson)
      rw [toJson, kind?_record _ (by simp)]
      simp [ofKind?, Json.fields?_record, Json.Fields.required?, each]
  | unreachableNodes ids =>
      rw [toJson, kind?_record _ (by simp)]
      simp [ofKind?, Json.fields?_record, Json.Fields.required?, Json.list?_texts]

end PlanError

/-! ## Outcomes -/

namespace Outcome

/-- The phase numbers of the plan, if there is one, fit 64 bits. -/
def Numbered (outcome : Outcome) : Prop :=
  forall plan, outcome = .ok plan -> plan.Numbered

variable {outcome : Outcome}

theorem isExact_toJson (numbered : outcome.Numbered) : (toJson outcome).isExact = true := by
  cases outcome with
  | ok plan =>
      apply Json.isExact_record
      simp [Plan.isExact_toJson (numbered plan rfl)]
  | error error =>
      apply Json.isExact_record
      simp [error.isExact_toJson]

theorem ofJson?_toJson (numbered : outcome.Numbered) : ofJson? (toJson outcome) = some outcome := by
  cases outcome with
  | ok plan => simp [toJson, Json.record, ofJson?, Plan.ofJson?_toJson (numbered plan rfl)]
  | error error =>
      have read : PlanError.ofJsonAt? 1 error.toJson = some error :=
        error.ofJsonAt?_toJson (by decide)
      simp [toJson, Json.record, ofJson?, read]

end Outcome

/-! ## A document with its phases -/

section Compile

variable {registry : Registry} {nodes : List Node} {edges : List Edge}

theorem length_planRounds_le (graph : DependencyGraph) (bound : Nat) (planned : List NodeId) :
    (planRounds registry nodes edges graph bound planned).length ≤ bound := by
  induction bound generalizing planned with
  | zero => rfl
  | succ bound ih =>
      rw [planRounds_succ]
      split
      · exact Nat.zero_le _
      · exact Nat.succ_le_succ (ih _)

/-- A plan has no more phases than its document has nodes. -/
theorem length_le_of_compile_eq_ok {plan : Plan}
    (planned : compile registry nodes edges = .ok plan) : plan.length ≤ nodes.length := by
  rcases planned_of_compile_eq_ok planned with ⟨entry, found, _, _, rfl⟩
  have some := List.length_pos_of_mem (entry_mem found)
  have later : (planRounds registry nodes edges (DependencyGraph.ofDocument nodes edges)
      (nodes.length - 1) [entry.id]).length ≤ nodes.length - 1 := length_planRounds_le _ _ _
  rw [length_ofRounds, agenda_eq, List.length_cons]
  omega

/-- The phases of a document that fits in memory are numbered within 64 bits. -/
theorem numbered_compile (countable : nodes.length < Word.unsignedCount) :
    Outcome.Numbered (compile registry nodes edges) := by
  intro plan planned phase member
  have few := length_le_of_compile_eq_ok planned
  rcases planned_of_compile_eq_ok planned with ⟨entry, _, _, _, rfl⟩
  have listed : phase.number ∈ (Plan.ofRounds (agenda registry nodes edges entry)).phases.map
      Phase.number := List.mem_map_of_mem member
  rw [numbers_ofRounds, List.mem_range'_1] at listed
  rw [length_ofRounds] at few
  omega

end Compile

/-! ## What planning prints -/

/-- The outcome that a printed body is read as. -/
def CommandOutput.outcome? (output : CommandOutput) : Option Outcome :=
  (Json.parse? output.body).bind Outcome.ofJson?

/-- The body is read as this outcome, and the verdict says whether it is a plan. -/
structure CommandOutput.Reports (output : CommandOutput) (outcome : Outcome) : Prop where
  body : output.outcome? = some outcome
  accepted : output.verdict = .accepted ↔ ∃ plan, output.outcome? = some (.ok plan)
  rejected : output.verdict = .rejected ↔ ∃ error, output.outcome? = some (.error error)
  succeeds : output.verdict.exitStatus = 0 ↔ output.verdict = .accepted
  fails : output.verdict.exitStatus = 2 ↔ output.verdict = .rejected

theorem Verdict.exitStatus_eq_zero_iff (verdict : Verdict) :
    verdict.exitStatus = 0 ↔ verdict = .accepted := by
  cases verdict <;> decide

theorem Verdict.exitStatus_eq_two_iff (verdict : Verdict) :
    verdict.exitStatus = 2 ↔ verdict = .rejected := by
  cases verdict <;> decide

/-- Planning prints what compiling comes to, and the layout makes no difference.
A document in memory has fewer nodes than there are 64-bit words. -/
theorem reports_planFlow (registry : Registry) (flow : Flow)
    (countable : flow.nodes.length < Word.unsignedCount) :
    (forall pretty, (Command.planFlow registry (.ofPretty pretty) flow).Reports
        (flow.compile registry)) ∧
      (Command.planFlow registry .pretty flow).outcome?
        = (Command.planFlow registry .compact flow).outcome? := by
  have numbered : Outcome.Numbered (flow.compile registry) := numbered_compile countable
  have body : forall layout, (Command.planFlow registry layout flow).outcome?
      = some (flow.compile registry) := by
    intro layout
    rw [CommandOutput.outcome?, Command.planFlow,
      Json.parse?_render _ (Outcome.isExact_toJson numbered), Option.bind_some,
      Outcome.ofJson?_toJson numbered]
  refine ⟨fun pretty => ?_, (body .pretty).trans (body .compact).symm⟩
  constructor
  case body => exact body _
  case accepted =>
    rw [body, Command.planFlow]
    cases flow.compile registry <;> simp [Except.isOk, Except.toBool]
  case rejected =>
    rw [body, Command.planFlow]
    cases flow.compile registry <;> simp [Except.isOk, Except.toBool]
  case succeeds => exact Verdict.exitStatus_eq_zero_iff _
  case fails => exact Verdict.exitStatus_eq_two_iff _

/-- One task that begins a workflow and one with an input, under names that
have to be escaped. -/
def quotingTasks : Registry := fun name =>
  if name = "OPEN\\\t" then some ⟨"Open", [], [⟨"out", .string⟩], true⟩
  else if name = "\"READ\"" then
    some ⟨"Read", [InputPort.needed "in\n\u2028" .string], [], false⟩
  else none

def quotedNode (literal : String) : Node :=
  (Node.blank "read/\x7f" "\"READ\"").withInput "in\n\u2028" literal

def quotedFlow (literal : String) : Flow :=
  ⟨[Node.blank "open\x01" "OPEN\\\t", quotedNode literal], [], none⟩

theorem reports_quoted :
    2 < Word.unsignedCount ∧
      (Command.planFlow quotingTasks .compact (quotedFlow "a\\\"b \u00e9")).outcome?
        = some (.ok ⟨[⟨1, [Node.blank "open\x01" "OPEN\\\t"]⟩,
            ⟨2, [quotedNode "a\\\"b \u00e9"]⟩]⟩) ∧
      (Command.planFlow quotingTasks .pretty (quotedFlow "")).outcome?
        = some (.error (.invalidInputs [⟨"read/\x7f", ["in\n\u2028"]⟩])) := by
  have planned : (quotedFlow "a\\\"b \u00e9").compile quotingTasks
      = .ok ⟨[⟨1, [Node.blank "open\x01" "OPEN\\\t"]⟩, ⟨2, [quotedNode "a\\\"b \u00e9"]⟩]⟩ := by rfl
  have refused : (quotedFlow "").compile quotingTasks
      = .error (.invalidInputs [⟨"read/\x7f", ["in\n\u2028"]⟩]) := by rfl
  have two : 2 < Word.unsignedCount := by decide
  have accepted := (reports_planFlow quotingTasks (quotedFlow "a\\\"b \u00e9") two).1 false
  have rejected := (reports_planFlow quotingTasks (quotedFlow "") two).1 true
  exact ⟨two, accepted.body.trans (congrArg some planned),
    rejected.body.trans (congrArg some refused)⟩

end FlowPlan
