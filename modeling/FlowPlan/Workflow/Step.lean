import FlowPlan.Flow.Edit
import FlowPlan.Workflow

namespace FlowPlan

/-!
The life of a workflow as data: a list of the steps taken with it.

A refused step leaves the workflow as it was.  An edit goes to the flow alone,
in whatever status the workflow is, and leaves a stored plan where it is.
-/

inductive WorkflowStep where
  | publish (registry : Registry) (now : Timestamp)
  | unpublish (now : Timestamp)
  | edit (registry : Registry) (edit : Edit)

/-- What a step does to the flow of the workflow. -/
def Flow.afterStep (flow : Flow) : WorkflowStep -> Flow
  | .publish _ _ => flow
  | .unpublish _ => flow
  | .edit registry edit => (flow.edit registry edit).2

def Flow.afterSteps (flow : Flow) (steps : List WorkflowStep) : Flow :=
  steps.foldl Flow.afterStep flow

namespace Workflow

/-- Go on with what was attempted, or as before where it was refused. -/
def orUnchanged (workflow : Workflow) : Except WorkflowError Workflow -> Workflow
  | .ok changed => changed
  | .error _ => workflow

def step (workflow : Workflow) : WorkflowStep -> Workflow
  | .publish registry now => workflow.orUnchanged (workflow.publish registry now)
  | .unpublish now => workflow.orUnchanged (workflow.unpublish now)
  | .edit registry edit =>
      { workflow with definition := (workflow.definition.edit registry edit).2 }

/-- The workflow that a list of steps leads to. -/
def afterSteps (workflow : Workflow) (steps : List WorkflowStep) : Workflow :=
  steps.foldl step workflow

end Workflow

end FlowPlan
