import FlowPlan.Json.Read
import FlowPlan.Json.Write
import FlowPlan.Settings
import FlowPlan.Task.Catalog
import FlowPlan.Wire.Plan
import FlowPlan.Wire.Task

namespace FlowPlan

/-!
The commands: plan a document, check a connection, list the known tasks.

A command prints one JSON value.  Its verdict says whether the document or the
connection was accepted, and becomes the exit status.
-/

inductive Command where
  | plan (file : String)
  | checkConnection (file : String) (connection : Edge)
  | tasks (only : Option TaskKind)
  deriving DecidableEq, Repr

inductive Verdict where
  | accepted
  | rejected
  deriving DecidableEq, Repr

namespace Verdict

def exitStatus : Verdict -> Nat
  | .accepted => 0
  | .rejected => 2

end Verdict

structure CommandOutput where
  body : String
  verdict : Verdict
  deriving DecidableEq, Repr

inductive CommandError where
  | readFailed (path : String)
  | parseFailed (path : String)
  deriving DecidableEq, Repr

namespace CommandError

def message : CommandError -> String
  | .readFailed path => "failed to read workflow document " ++ path
  | .parseFailed path => "failed to parse workflow document " ++ path

def exitStatus : Nat := 1

end CommandError

namespace Command

/-- The document a command reads. -/
def file? : Command -> Option String
  | .plan file => some file
  | .checkConnection file _ => some file
  | .tasks _ => none

/-- Read a document, which must be UTF-8 text. -/
def loadFlow (read : FileReader) (path : String) : Except CommandError Flow :=
  match (read path).bind String.fromUTF8? with
  | none => .error (.readFailed path)
  | some text =>
      match (Json.parse? text).bind Flow.ofJson? with
      | none => .error (.parseFailed path)
      | some flow => .ok flow

/-- Compile a document; accepted when there is a plan. -/
def planFlow (registry : Registry) (layout : Json.Layout) (flow : Flow) : CommandOutput :=
  let outcome := flow.compile registry
  { body := (Outcome.toJson outcome).render layout
    verdict := if outcome.isOk then .accepted else .rejected }

def connectionJson : Except EditError Unit -> Json
  | .ok () => .record [("accepted", .bool true)]
  | .error error => .record [("accepted", .bool false), ("reason", .text error.message)]

/-- Check whether a connection may be drawn; accepted when it may. -/
def checkFlow (registry : Registry) (layout : Json.Layout) (flow : Flow) (connection : Edge) :
    CommandOutput :=
  let result := flow.validate registry connection
  { body := (connectionJson result).render layout
    verdict := if result.isOk then .accepted else .rejected }

/-- A listed task: its name before the fields of its definition. -/
def entryJson (entry : String × TaskDefinition) : Json :=
  .record (("taskType", .text entry.1) :: entry.2.members)

/-- List a catalog, or the one task of it that is asked for. -/
def listTasks (catalog : Catalog) (layout : Json.Layout) (only : Option TaskKind) :
    CommandOutput :=
  let wanted := catalog.entries.filter (fun entry => only.all (fun kind => kind.name == entry.1))
  { body := (Json.array (wanted.map entryJson)).render layout
    verdict := .accepted }

def run (read : FileReader) (catalog : Catalog) (layout : Json.Layout) :
    Command -> Except CommandError CommandOutput
  | .plan file => (loadFlow read file).map (planFlow catalog.lookup layout)
  | .checkConnection file connection =>
      (loadFlow read file).map (fun flow => checkFlow catalog.lookup layout flow connection)
  | .tasks only => .ok (listTasks catalog layout only)

end Command

end FlowPlan
