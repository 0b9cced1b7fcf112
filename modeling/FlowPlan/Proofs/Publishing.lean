import FlowPlan.Proofs.Lifecycle

namespace FlowPlan

/-!
When a workflow is published, and when it holds a plan.

`Lived` follows a workflow from its start and remembers the flow and the
registry of the latest publish that was accepted.  A refused attempt is no step
of a life, since it leaves the workflow as it was, and between two attempts the
document may become any other.
-/

/-! ## Accepted and refused attempts -/

section Attempts

variable {workflow changed : Workflow} {registry : Registry} {now : Timestamp}
  {error : WorkflowError}

theorem Workflow.publish_eq_ok_iff :
    workflow.publish registry now = .ok changed ↔
      workflow.status = .draft ∧ ∃ plan, workflow.definition.compile registry = .ok plan ∧
        changed =
          { workflow with status := .published, executionPlan := some plan, updatedAt := now } := by
  unfold Workflow.publish
  cases workflow.status with
  | published => simp
  | draft => cases workflow.definition.compile registry <;> simp [eq_comm]

theorem Workflow.publish_eq_error_iff :
    workflow.publish registry now = .error error ↔
      (workflow.status = .published ∧
          error = .invalidTransition workflow.id .published .published) ∨
        (workflow.status = .draft ∧ ∃ cause, workflow.definition.compile registry = .error cause ∧
          error = .invalidPlan workflow.id cause) := by
  unfold Workflow.publish
  cases workflow.status with
  | published => simp [eq_comm]
  | draft => cases workflow.definition.compile registry <;> simp [eq_comm]

theorem Workflow.unpublish_eq_ok_iff :
    workflow.unpublish now = .ok changed ↔
      workflow.status = .published ∧
        changed = { workflow with status := .draft, executionPlan := none, updatedAt := now } := by
  unfold Workflow.unpublish
  cases workflow.status <;> simp [eq_comm]

theorem Workflow.unpublish_eq_error_iff :
    workflow.unpublish now = .error error ↔
      workflow.status = .draft ∧ error = .invalidTransition workflow.id .draft .draft := by
  unfold Workflow.unpublish
  cases workflow.status <;> simp [eq_comm]

/-- What a workflow is called, when it began and what it does are the same. -/
structure Preserves (workflow changed : Workflow) : Prop where
  id : changed.id = workflow.id
  name : changed.name = workflow.name
  description : changed.description = workflow.description
  createdAt : changed.createdAt = workflow.createdAt
  definition : changed.definition = workflow.definition

theorem Preserves.refl (workflow : Workflow) : Preserves workflow workflow :=
  ⟨rfl, rfl, rfl, rfl, rfl⟩

theorem preserves_step {step : WorkflowStep}
    (unedited : forall registry edit, step ≠ .edit registry edit) (workflow : Workflow) :
    Preserves workflow (workflow.step step) := by
  have stepped := steps_step workflow step
  generalize workflow.step step = reached at stepped
  cases stepped with
  | published registry now plan draft planned => exact ⟨rfl, rfl, rfl, rfl, rfl⟩
  | publishRefused registry now refused => exact Preserves.refl workflow
  | unpublished now published => exact ⟨rfl, rfl, rfl, rfl, rfl⟩
  | unpublishRefused now draft => exact Preserves.refl workflow
  | edited registry edit => exact absurd rfl (unedited registry edit)

end Attempts

/-! ## Lives -/

/-- The workflow may come from the start, and this was its latest accepted
publish: the flow as it was then, and the registry. -/
inductive Lived (start : Workflow) : Option (Flow × Registry) -> Workflow -> Prop
  | start : Lived start none start
  | redrawn {last : Option (Flow × Registry)} {workflow : Workflow} (flow : Flow)
      (lived : Lived start last workflow) : Lived start last { workflow with definition := flow }
  | published {last : Option (Flow × Registry)} {workflow changed : Workflow} (registry : Registry)
      (now : Timestamp) (lived : Lived start last workflow)
      (accepted : workflow.publish registry now = .ok changed) :
      Lived start (some (workflow.definition, registry)) changed
  | unpublished {last : Option (Flow × Registry)} {workflow changed : Workflow} (now : Timestamp)
      (lived : Lived start last workflow) (accepted : workflow.unpublish now = .ok changed) :
      Lived start last changed

/-- A draft holds no plan, and a published workflow that of its latest publish. -/
inductive PlanStored (last : Option (Flow × Registry)) (workflow : Workflow) : Prop
  | draft (status : workflow.status = .draft) (none : workflow.executionPlan = none)
  | published (flow : Flow) (registry : Registry) (plan : Plan)
      (status : workflow.status = .published) (latest : last = some (flow, registry))
      (planned : flow.compile registry = .ok plan) (stored : workflow.executionPlan = some plan)

theorem Lived.planStored {start workflow : Workflow} {last : Option (Flow × Registry)}
    (draft : start.status = .draft) (unplanned : start.executionPlan = none)
    (lived : Lived start last workflow) : PlanStored last workflow := by
  induction lived with
  | start => exact .draft draft unplanned
  | redrawn flow _ ih =>
      cases ih with
      | draft status none => exact .draft status none
      | published published registry plan status latest planned stored =>
          exact .published published registry plan status latest planned stored
  | published registry now _ accepted _ =>
      rcases Workflow.publish_eq_ok_iff.mp accepted with ⟨_, plan, planned, rfl⟩
      exact .published _ registry plan rfl rfl planned rfl
  | unpublished now _ accepted _ =>
      rcases Workflow.unpublish_eq_ok_iff.mp accepted with ⟨_, rfl⟩
      exact .draft rfl rfl

theorem Lived.step {start workflow : Workflow} {last : Option (Flow × Registry)}
    (lived : Lived start last workflow) (step : WorkflowStep) :
    ∃ latest, Lived start latest (workflow.step step) := by
  have stepped := steps_step workflow step
  generalize workflow.step step = reached at stepped
  cases stepped with
  | published registry now plan draft planned =>
      exact ⟨_, lived.published registry now
        (Workflow.publish_eq_ok_iff.mpr ⟨draft, plan, planned, rfl⟩)⟩
  | publishRefused registry now refused => exact ⟨last, lived⟩
  | unpublished now published =>
      exact ⟨last, lived.unpublished now (Workflow.unpublish_eq_ok_iff.mpr ⟨published, rfl⟩)⟩
  | unpublishRefused now draft => exact ⟨last, lived⟩
  | edited registry edit => exact ⟨last, lived.redrawn _⟩

theorem exists_lived_afterSteps (start : Workflow) (steps : List WorkflowStep) :
    ∃ last, Lived start last (start.afterSteps steps) := by
  induction steps using List.reverseRecOn with
  | nil => exact ⟨none, .start⟩
  | append_singleton steps step ih =>
      rcases ih with ⟨last, lived⟩
      rw [Workflow.afterSteps_concat]
      exact lived.step step

/-- What holds of a workflow at every moment of its life: when it holds a plan and
which, when it can be published and unpublished, and what either leaves. -/
structure Lifecycle (last : Option (Flow × Registry)) (workflow : Workflow) : Prop where
  stored : workflow.executionPlan.isSome ↔ workflow.status = .published
  latest : forall plan, workflow.executionPlan = some plan ->
    ∃ flow registry, last = some (flow, registry) ∧ flow.compile registry = .ok plan
  publishes : forall registry now,
    (∃ changed, workflow.publish registry now = .ok changed) ↔
      workflow.status = .draft ∧ ∃ plan, workflow.definition.compile registry = .ok plan
  published : forall registry now changed, workflow.publish registry now = .ok changed ↔
    workflow.status = .draft ∧ ∃ plan, workflow.definition.compile registry = .ok plan ∧
      changed =
        { workflow with status := .published, executionPlan := some plan, updatedAt := now }
  publishRefused : forall registry now error,
    workflow.publish registry now = .error error ↔
      (workflow.status = .published ∧
          error = .invalidTransition workflow.id .published .published) ∨
        (workflow.status = .draft ∧ ∃ cause, workflow.definition.compile registry = .error cause ∧
          error = .invalidPlan workflow.id cause)
  unpublishes : forall now,
    (∃ changed, workflow.unpublish now = .ok changed) ↔ workflow.status = .published
  unpublished : forall now changed, workflow.unpublish now = .ok changed ↔
    workflow.status = .published ∧
      changed = { workflow with status := .draft, executionPlan := none, updatedAt := now }
  unpublishRefused : forall now error, workflow.unpublish now = .error error ↔
    workflow.status = .draft ∧ error = .invalidTransition workflow.id .draft .draft
  publishPreserves : forall registry now,
    Preserves workflow (workflow.step (.publish registry now))
  unpublishPreserves : forall now, Preserves workflow (workflow.step (.unpublish now))

theorem PlanStored.lifecycle {last : Option (Flow × Registry)} {workflow : Workflow}
    (planStored : PlanStored last workflow) : Lifecycle last workflow := by
  constructor
  case stored =>
    cases planStored with
    | draft status none => simp [status, none]
    | published flow registry plan status latest planned stored => simp [status, stored]
  case latest =>
    intro plan held
    cases planStored with
    | draft status none =>
        rw [none] at held
        cases held
    | published flow registry stored status latest planned storedHere =>
        cases storedHere.symm.trans held
        exact ⟨flow, registry, latest, planned⟩
  case publishes =>
    intro registry now
    constructor
    · rintro ⟨changed, accepted⟩
      rcases Workflow.publish_eq_ok_iff.mp accepted with ⟨draft, plan, planned, _⟩
      exact ⟨draft, plan, planned⟩
    · rintro ⟨draft, plan, planned⟩
      exact ⟨_, Workflow.publish_eq_ok_iff.mpr ⟨draft, plan, planned, rfl⟩⟩
  case published => exact fun _ _ _ => Workflow.publish_eq_ok_iff
  case publishRefused => exact fun _ _ _ => Workflow.publish_eq_error_iff
  case unpublishes =>
    intro now
    constructor
    · rintro ⟨changed, accepted⟩
      exact (Workflow.unpublish_eq_ok_iff.mp accepted).1
    · exact fun published => ⟨_, Workflow.unpublish_eq_ok_iff.mpr ⟨published, rfl⟩⟩
  case unpublished => exact fun _ _ => Workflow.unpublish_eq_ok_iff
  case unpublishRefused => exact fun _ _ => Workflow.unpublish_eq_error_iff
  case publishPreserves =>
    exact fun _ _ => preserves_step (fun _ _ same => by cases same) workflow
  case unpublishPreserves =>
    exact fun _ => preserves_step (fun _ _ same => by cases same) workflow

/-- At every moment of the life of a new workflow it holds a plan just when it
is published, and that plan is the one of its latest accepted publish.
Publishing turns a draft that can be planned into a published workflow with its
plan, unpublishing turns it back into a draft without one, and neither does
anything else.  Every list of steps leads to a moment of such a life. -/
theorem lifecycle_of_lived (id : WorkflowId) (entry : NodeId) (now : Timestamp) (name : String) :
    (forall last workflow, Lived (Workflow.new id entry now name) last workflow ->
      Lifecycle last workflow) ∧
    forall steps, ∃ last, Lived (Workflow.new id entry now name) last
      ((Workflow.new id entry now name).afterSteps steps) :=
  ⟨fun _ _ lived => (lived.planStored rfl rfl).lifecycle,
    exists_lived_afterSteps (Workflow.new id entry now name)⟩

/-- The flow of the fresh workflow with an address typed in. -/
def addressFlow (address : String) : Flow :=
  (freshWorkflow.step (typedAddress address)).definition

def addressDraft (address : String) : Workflow :=
  { freshWorkflow with definition := addressFlow address }

def addressPublished (address : String) : Workflow :=
  { addressDraft address with
    status := .published
    executionPlan := some (addressPlan address) }

/-- Published, taken back, changed and published again, and changed once more:
the plan is that of the second publish. -/
theorem lifecycle_republished :
    Lived freshWorkflow (some (addressFlow "second", Catalog.builtin.lookup))
        { addressPublished "second" with definition := addressFlow "third" } ∧
      Lifecycle (some (addressFlow "second", Catalog.builtin.lookup))
        { addressPublished "second" with definition := addressFlow "third" } := by
  have drafted : Lived freshWorkflow none (addressDraft "first") :=
    .redrawn (addressFlow "first") .start
  have published : Lived freshWorkflow (some (addressFlow "first", Catalog.builtin.lookup))
      (addressPublished "first") :=
    drafted.published Catalog.builtin.lookup Timestamp.epoch (by rfl)
  have back : Lived freshWorkflow (some (addressFlow "first", Catalog.builtin.lookup))
      (addressDraft "first") := published.unpublished Timestamp.epoch (by rfl)
  have changed : Lived freshWorkflow (some (addressFlow "first", Catalog.builtin.lookup))
      (addressDraft "second") := back.redrawn (addressFlow "second")
  have again : Lived freshWorkflow (some (addressFlow "second", Catalog.builtin.lookup))
      (addressPublished "second") :=
    changed.published Catalog.builtin.lookup Timestamp.epoch (by rfl)
  have lived := again.redrawn (addressFlow "third")
  exact ⟨lived, (lifecycle_of_lived ⟨1⟩ "entry" Timestamp.epoch "scrape").1 _ _ lived⟩

end FlowPlan
