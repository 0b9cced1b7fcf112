import FlowPlan.Workflow

namespace FlowPlan

/-!
Publishing and unpublishing in place.

As with edits, each field is written on its own, and a refusal stops the
program with whatever it has written by then.
-/

namespace Workflow

/-- A program on a workflow, which it may change and which may be refused. -/
abbrev Transition (Answer : Type) := EStateM WorkflowError Workflow Answer

/-- Publish, and answer the plan that is now stored. -/
def publishing (registry : Registry) (now : Timestamp) : Transition Plan := do
  let workflow <- get
  if workflow.status ≠ .draft then
    throw (.invalidTransition workflow.id workflow.status .published)
  let plan <- MonadExcept.ofExcept
    ((workflow.definition.compile registry).mapError (.invalidPlan workflow.id))
  modify (fun workflow => { workflow with status := .published })
  modify (fun workflow => { workflow with updatedAt := now })
  modify (fun workflow => { workflow with executionPlan := some plan })
  return plan

def unpublishing (now : Timestamp) : Transition Unit := do
  let workflow <- get
  if workflow.status ≠ .published then
    throw (.invalidTransition workflow.id workflow.status .draft)
  modify (fun workflow => { workflow with status := .draft })
  modify (fun workflow => { workflow with executionPlan := none })
  modify (fun workflow => { workflow with updatedAt := now })

end Workflow

end FlowPlan
