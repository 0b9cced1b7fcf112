import FlowPlan.Task.Catalog
import FlowPlan.Workflow.Step
import Mathlib.Data.List.Induction

namespace FlowPlan

/-!
Which plan a published workflow keeps.

Only an accepted publish stores a plan and only an accepted unpublish drops
one.  Edits reach the flow of a published workflow too and do not touch the
plan, so that the plan is that of the flow as it was published, and of the
present flow where no edit has changed it since.
-/

/-! ## What one step can do -/

/-- All that a step can make of a workflow. -/
inductive Steps (workflow : Workflow) : WorkflowStep -> Workflow -> Prop
  | published (registry : Registry) (now : Timestamp) (plan : Plan)
      (draft : workflow.status = .draft)
      (planned : workflow.definition.compile registry = .ok plan) :
      Steps workflow (.publish registry now)
        { workflow with status := .published, executionPlan := some plan, updatedAt := now }
  | publishRefused (registry : Registry) (now : Timestamp)
      (refused : workflow.status = .published ∨
        ∃ error, workflow.definition.compile registry = .error error) :
      Steps workflow (.publish registry now) workflow
  | unpublished (now : Timestamp) (published : workflow.status = .published) :
      Steps workflow (.unpublish now)
        { workflow with status := .draft, executionPlan := none, updatedAt := now }
  | unpublishRefused (now : Timestamp) (draft : workflow.status = .draft) :
      Steps workflow (.unpublish now) workflow
  | edited (registry : Registry) (edit : Edit) :
      Steps workflow (.edit registry edit)
        { workflow with definition := (workflow.definition.edit registry edit).2 }

theorem steps_step (workflow : Workflow) (step : WorkflowStep) :
    Steps workflow step (workflow.step step) := by
  cases step with
  | publish registry now =>
      simp only [Workflow.step, Workflow.publish]
      split
      · rename_i published
        exact .publishRefused registry now (Or.inl published)
      · rename_i draft
        split
        · rename_i error unplanned
          exact .publishRefused registry now (Or.inr ⟨error, unplanned⟩)
        · rename_i plan planned
          exact .published registry now plan draft planned
  | unpublish now =>
      simp only [Workflow.step, Workflow.unpublish]
      split
      · rename_i draft
        exact .unpublishRefused now draft
      · rename_i published
        exact .unpublished now published
  | edit registry edit => exact .edited registry edit

/-- Publishing and unpublishing leave the flow alone. -/
theorem Steps.definition_eq {workflow changed : Workflow} {step : WorkflowStep}
    (stepped : Steps workflow step changed) :
    changed.definition = workflow.definition.afterStep step := by
  cases stepped <;> rfl

/-! ## What a list of steps leads to -/

theorem Workflow.afterSteps_concat (workflow : Workflow) (steps : List WorkflowStep)
    (step : WorkflowStep) :
    workflow.afterSteps (steps ++ [step]) = (workflow.afterSteps steps).step step := by
  simp [Workflow.afterSteps]

theorem Flow.afterSteps_concat (flow : Flow) (steps : List WorkflowStep) (step : WorkflowStep) :
    flow.afterSteps (steps ++ [step]) = (flow.afterSteps steps).afterStep step := by
  simp [Flow.afterSteps]

/-- Steps that are no edits do not change the flow. -/
theorem Flow.afterSteps_eq_self {flow : Flow} {steps : List WorkflowStep}
    (unedited : forall registry edit, WorkflowStep.edit registry edit ∉ steps) :
    flow.afterSteps steps = flow := by
  induction steps with
  | nil => rfl
  | cons step rest ih =>
      have later := ih (fun registry edit member =>
        unedited registry edit (List.mem_cons_of_mem _ member))
      cases step with
      | publish registry now => exact later
      | unpublish now => exact later
      | edit registry edit => exact absurd List.mem_cons_self (unedited registry edit)

/-- Edits one after the other change the flow of a workflow and nothing else. -/
theorem Workflow.afterSteps_edits (workflow : Workflow) {edits : List WorkflowStep}
    (edit : forall step, step ∈ edits -> ∃ registry edit, step = .edit registry edit) :
    workflow.afterSteps edits
      = { workflow with definition := workflow.definition.afterSteps edits } := by
  induction edits using List.reverseRecOn with
  | nil => rfl
  | append_singleton edits step ih =>
      have earlier := ih (fun other member => edit other (List.mem_append_left _ member))
      rcases edit step (List.mem_append_right _ List.mem_cons_self) with ⟨registry, edit, rfl⟩
      rw [Workflow.afterSteps_concat, Flow.afterSteps_concat, earlier]
      rfl

/-! ## The publish behind a stored plan -/

/-- After the steps `before` the workflow was published, and it has stayed
published through the steps `later`. -/
structure PublishedBy (start : Workflow) (before : List WorkflowStep) (registry : Registry)
    (now : Timestamp) (later : List WorkflowStep) (plan : Plan) : Prop where
  draft : (start.afterSteps before).status = .draft
  planned : (start.afterSteps before).definition.compile registry = .ok plan
  lasting : forall between, between <+: later ->
    (start.afterSteps (before ++ .publish registry now :: between)).status = .published
  stored : (start.afterSteps (before ++ .publish registry now :: later)).executionPlan = some plan
  edited : (start.afterSteps (before ++ .publish registry now :: later)).definition
    = (start.afterSteps before).definition.afterSteps later

theorem publishedBy_nil {start : Workflow} {before : List WorkflowStep} {registry : Registry}
    (now : Timestamp) {plan : Plan} (draft : (start.afterSteps before).status = .draft)
    (planned : (start.afterSteps before).definition.compile registry = .ok plan) :
    PublishedBy start before registry now [] plan := by
  have reached : start.afterSteps (before ++ [.publish registry now])
      = { start.afterSteps before with
          status := .published, executionPlan := some plan, updatedAt := now } := by
    rw [Workflow.afterSteps_concat, Workflow.step, Workflow.publish, draft]
    simp only [planned]
    rfl
  constructor
  case draft => exact draft
  case planned => exact planned
  case lasting =>
    intro between none
    rw [List.prefix_nil.mp none, reached]
  case stored => rw [reached]
  case edited =>
    rw [reached]
    rfl

/-- A publish goes on holding through a step that leaves status and plan. -/
theorem PublishedBy.concat {start : Workflow} {before later : List WorkflowStep}
    {registry : Registry} {now : Timestamp} {plan : Plan} {step : WorkflowStep}
    (published : PublishedBy start before registry now later plan)
    (status : ((start.afterSteps (before ++ .publish registry now :: later)).step step).status
      = .published)
    (stored : ((start.afterSteps (before ++ .publish registry now :: later)).step step).executionPlan
      = some plan) : PublishedBy start before registry now (later ++ [step]) plan := by
  have reached : start.afterSteps (before ++ .publish registry now :: (later ++ [step]))
      = (start.afterSteps (before ++ .publish registry now :: later)).step step := by
    rw [← Workflow.afterSteps_concat, List.append_assoc, List.cons_append]
  constructor
  case draft => exact published.draft
  case planned => exact published.planned
  case lasting =>
    intro between first
    rcases List.prefix_concat_iff.mp first with rfl | earlier
    · rw [reached]
      exact status
    · exact published.lasting between earlier
  case stored => rw [reached, stored]
  case edited =>
    rw [reached, (steps_step _ step).definition_eq, published.edited, Flow.afterSteps_concat]

/-- Behind every published state of a life that began as a draft stands a publish. -/
theorem exists_publishedBy {start : Workflow} (draft : start.status = .draft)
    {steps : List WorkflowStep} (published : (start.afterSteps steps).status = .published) :
    ∃ before registry now later plan, steps = before ++ .publish registry now :: later ∧
      PublishedBy start before registry now later plan := by
  induction steps using List.reverseRecOn with
  | nil => cases draft.symm.trans published
  | append_singleton steps step ih =>
      rw [Workflow.afterSteps_concat] at published
      have goesOn : (start.afterSteps steps).status = .published ->
          ((start.afterSteps steps).step step).executionPlan
            = (start.afterSteps steps).executionPlan ->
          ∃ before registry now later plan,
            steps ++ [step] = before ++ .publish registry now :: later ∧
              PublishedBy start before registry now later plan := by
        intro still kept
        rcases ih still with ⟨before, registry, now, later, plan, rfl, earlier⟩
        exact ⟨before, registry, now, later ++ [step], plan, by simp,
          earlier.concat published (kept.trans earlier.stored)⟩
      have stepped := steps_step (start.afterSteps steps) step
      generalize (start.afterSteps steps).step step = reached at stepped published goesOn
      cases stepped with
      | published registry now plan wasDraft planned =>
          exact ⟨steps, registry, now, [], plan, rfl, publishedBy_nil now wasDraft planned⟩
      | publishRefused registry now refused => exact goesOn published rfl
      | unpublished now wasPublished => cases published
      | unpublishRefused now wasDraft => cases wasDraft.symm.trans published
      | edited registry edit => exact goesOn published rfl

/-- Edits leave all of a workflow but its flow, whatever its status.  So the
plan of a published workflow is the one of its last publish.  It is the plan
of the present flow where the nodes and edges are those that were published,
and in particular where nothing was edited since. -/
theorem executionPlan_of_published (start : Workflow) :
    (forall before edits,
      (forall step, step ∈ edits -> ∃ used edit, step = WorkflowStep.edit used edit) ->
      start.afterSteps (before ++ edits)
        = { start.afterSteps before with
            definition := (start.afterSteps before).definition.afterSteps edits }) ∧
    (start.status = .draft -> forall steps, (start.afterSteps steps).status = .published ->
      ∃ before registry now later plan, steps = before ++ .publish registry now :: later ∧
        PublishedBy start before registry now later plan ∧
        ((start.afterSteps steps).definition.nodes = (start.afterSteps before).definition.nodes ->
          (start.afterSteps steps).definition.edges = (start.afterSteps before).definition.edges ->
          (start.afterSteps steps).definition.compile registry = .ok plan) ∧
        ((forall used edit, WorkflowStep.edit used edit ∉ later) ->
          (start.afterSteps steps).definition.compile registry = .ok plan)) := by
  constructor
  · intro before edits edit
    rw [Workflow.afterSteps, List.foldl_append]
    exact (start.afterSteps before).afterSteps_edits edit
  · intro draft steps published
    rcases exists_publishedBy draft published with
      ⟨before, registry, now, later, plan, rfl, publish⟩
    refine ⟨before, registry, now, later, plan, rfl, publish, ?_, ?_⟩
    · intro sameNodes sameEdges
      rw [Flow.compile, sameNodes, sameEdges]
      exact publish.planned
    · intro unedited
      rw [publish.edited, Flow.afterSteps_eq_self unedited]
      exact publish.planned

def freshWorkflow : Workflow := Workflow.new ⟨1⟩ "entry" Timestamp.epoch "scrape"

def typedAddress (address : String) : WorkflowStep :=
  .edit Catalog.builtin.lookup (.setInput "entry" "Website URL" address)

/-- The plan of a browser that opens at an address. -/
def addressPlan (address : String) : Plan :=
  ⟨[⟨1, [(Node.blank "entry" "LAUNCH_BROWSER").withInput "Website URL" address]⟩]⟩

/-- Published, taken back, changed and published again; the last step is refused. -/
def republishedSteps : List WorkflowStep :=
  [typedAddress "first", .publish Catalog.builtin.lookup Timestamp.epoch,
    .unpublish Timestamp.epoch, typedAddress "second",
    .publish Catalog.builtin.lookup Timestamp.epoch,
    .publish Catalog.builtin.lookup Timestamp.epoch]

theorem executionPlan_republished :
    freshWorkflow.status = .draft ∧
      (freshWorkflow.afterSteps republishedSteps).status = .published ∧
      (freshWorkflow.afterSteps republishedSteps).executionPlan = some (addressPlan "second") ∧
      freshWorkflow.afterSteps (republishedSteps ++ [typedAddress "third"])
        = { freshWorkflow.afterSteps republishedSteps with
            definition := (freshWorkflow.afterSteps republishedSteps).definition.afterSteps
              [typedAddress "third"] } ∧
      ∃ before registry now later plan,
        republishedSteps = before ++ .publish registry now :: later ∧
          PublishedBy freshWorkflow before registry now later plan := by
  have draft : freshWorkflow.status = .draft := rfl
  have published : (freshWorkflow.afterSteps republishedSteps).status = .published := by rfl
  rcases (executionPlan_of_published freshWorkflow).2 draft republishedSteps published with
    ⟨before, registry, now, later, plan, split, publish, _⟩
  have edited := (executionPlan_of_published freshWorkflow).1 republishedSteps
    [typedAddress "third"] (fun step only => ⟨_, _, List.mem_singleton.mp only⟩)
  exact ⟨draft, published, by rfl, edited, before, registry, now, later, plan, split, publish⟩

/-- A literal is typed into the published workflow. -/
def staleSteps : List WorkflowStep :=
  [typedAddress "first", .publish Catalog.builtin.lookup Timestamp.epoch, typedAddress "second"]

/-- The stored plan is then not the plan of the flow. -/
theorem executionPlan_stale :
    (freshWorkflow.afterSteps staleSteps).status = .published ∧
      (freshWorkflow.afterSteps staleSteps).executionPlan = some (addressPlan "first") ∧
      (freshWorkflow.afterSteps staleSteps).definition.compile Catalog.builtin.lookup
        = .ok (addressPlan "second") ∧
      addressPlan "first" ≠ addressPlan "second" := by
  exact ⟨by rfl, by rfl, by rfl, by decide⟩

end FlowPlan
