import FlowPlan.Flow
import FlowPlan.Timestamp
import FlowPlan.WorkflowId

namespace FlowPlan

/-!
Workflows: named flows with a life of their own.

A workflow begins as a draft.  Publishing compiles its flow and keeps the plan
for the engine that runs it; unpublishing drops the plan.  Both take the
current time, which becomes the time of the last change.
-/

inductive WorkflowStatus where
  | draft
  | published
  deriving DecidableEq, Repr

namespace WorkflowStatus

def name : WorkflowStatus -> String
  | .draft => "DRAFT"
  | .published => "PUBLISHED"

def all : List WorkflowStatus := [.draft, .published]

def ofName? (text : String) : Option WorkflowStatus :=
  all.find? (fun status => status.name == text)

end WorkflowStatus

structure Workflow where
  id : WorkflowId
  name : String
  description : Option String
  status : WorkflowStatus
  definition : Flow
  executionPlan : Option Plan
  createdAt : Timestamp
  updatedAt : Timestamp

inductive WorkflowError where
  | invalidTransition (workflow : WorkflowId) (source target : WorkflowStatus)
  | invalidPlan (workflow : WorkflowId) (error : PlanError)
  deriving DecidableEq, Repr

namespace WorkflowError

def message : WorkflowError -> String
  | .invalidTransition workflow source target =>
      "workflow " ++ workflow.display ++ ": invalid state transition from " ++ source.name
        ++ " to " ++ target.name
  | .invalidPlan workflow error =>
      "workflow " ++ workflow.display ++ " cannot be planned: " ++ error.message

end WorkflowError

namespace Workflow

/-- A fresh draft with one entry point. -/
def new (id : WorkflowId) (entry : NodeId) (now : Timestamp) (name : String) : Workflow where
  id := id
  name := name
  description := none
  status := .draft
  definition := Flow.withEntryPoint entry
  executionPlan := none
  createdAt := now
  updatedAt := now

def withDescription (workflow : Workflow) (description : String) : Workflow :=
  { workflow with description := some description }

def isPublished (workflow : Workflow) : Bool := decide (workflow.status = .published)

def publish (registry : Registry) (now : Timestamp) (workflow : Workflow) :
    Except WorkflowError Workflow :=
  match workflow.status with
  | .published => .error (.invalidTransition workflow.id .published .published)
  | .draft =>
      match workflow.definition.compile registry with
      | .error error => .error (.invalidPlan workflow.id error)
      | .ok plan =>
          .ok
            { workflow with
              status := .published
              executionPlan := some plan
              updatedAt := now }

def unpublish (now : Timestamp) (workflow : Workflow) : Except WorkflowError Workflow :=
  match workflow.status with
  | .draft => .error (.invalidTransition workflow.id .draft .draft)
  | .published =>
      .ok { workflow with status := .draft, executionPlan := none, updatedAt := now }

end Workflow

end FlowPlan
