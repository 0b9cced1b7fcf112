import FlowPlan.Command
import FlowPlan.CommandLine.Grammar

namespace FlowPlan

/-!
The command line: `plan FILE`, `check-connection FILE` with the ends of the
connection, and `tasks` with an optional task type.  A settings file may be
named before or after the subcommand; the inner one counts.
-/

structure Invocation where
  settingsFile : Option String
  command : Command
  deriving DecidableEq, Repr

namespace CommandLine

def settingsOption : Parameter := ⟨"config", .path⟩

def fileOperand : Parameter := ⟨"file", .path⟩

def topLevel : Grammar where
  options := [settingsOption]
  operand := none
  required := []
  versioned := true
  subcommands := ["plan", "check-connection", "tasks"]

def planLevel : Grammar where
  options := [settingsOption]
  operand := some fileOperand
  required := ["file"]
  versioned := false
  subcommands := []

def checkLevel : Grammar where
  options :=
    [settingsOption, ⟨"source", .text⟩, ⟨"target", .text⟩, ⟨"source-handle", .text⟩,
      ⟨"target-handle", .text⟩]
  operand := some fileOperand
  required := ["file", "source", "target"]
  versioned := false
  subcommands := []

def tasksLevel : Grammar where
  options := [settingsOption]
  operand := some ⟨"task-type", .taskKind⟩
  required := []
  versioned := false
  subcommands := []

/-- Read one level to its end, all of it being arguments of that level. -/
def readLevel (grammar : Grammar) (arguments : List String) : Except UsageError Progress := do
  let (progress, _) <- grammar.read Progress.start arguments
  grammar.finish progress

/-- Read the arguments of a subcommand. -/
def readCommand (name : String) (arguments : List String) :
    Except UsageError (Progress × Command) :=
  if name = "plan" then do
    let given <- readLevel planLevel arguments
    .ok (given, .plan ((given.value? "file").getD ""))
  else if name = "check-connection" then do
    let given <- readLevel checkLevel arguments
    let connection : Edge :=
      { source := (given.value? "source").getD ""
        target := (given.value? "target").getD ""
        sourceHandle := given.value? "source-handle"
        targetHandle := given.value? "target-handle" }
    .ok (given, .checkConnection ((given.value? "file").getD "") connection)
  else if name = "tasks" then do
    let given <- readLevel tasksLevel arguments
    .ok (given, .tasks ((given.value? "task-type").bind TaskKind.ofName?))
  else .error (topLevel.help arguments)

/-- Read all arguments.  What a subcommand finds wrong comes before what is
still pending in front of it. -/
def parse (arguments : List String) : Except UsageError Invocation := do
  let (progress, entered) <- topLevel.read Progress.start arguments
  match entered with
  | some (name, rest) => do
      let (inner, command) <- readCommand name rest
      let outer <- progress.settle
      .ok ⟨(inner.value? "config").or (outer.value? "config"), command⟩
  | none => do
      let settled <- progress.settle
      .error (if settled.given.isEmpty then .displayHelpOnMissingArgument else .missingSubcommand)

end CommandLine

/-! ## A whole run -/

/-- What a run writes to its standard output, and its exit status. -/
structure RunResult where
  output : String
  exitStatus : Nat
  deriving DecidableEq, Repr

namespace RunResult

def silent (exitStatus : Nat) : RunResult := ⟨"", exitStatus⟩

def versionText : String := "taskflow-planner 0.1.0"

def helpText : String :=
  "Usage: taskflow-planner [OPTIONS] <COMMAND>\n\nCommands:\n"
    ++ "  plan FILE\n"
    ++ "  check-connection FILE --source S --target T [--source-handle H] [--target-handle H]\n"
    ++ "  tasks [TASK_TYPE]\n"
    ++ "  help\n\nOptions:\n  --config PATH\n  -h, --help\n  -V, --version"

def ofUsageError : UsageError -> RunResult
  | .displayVersion => ⟨versionText ++ "\n", UsageError.displayVersion.exitStatus⟩
  | .displayHelp => ⟨helpText ++ "\n", UsageError.displayHelp.exitStatus⟩
  | error => silent error.exitStatus

end RunResult

namespace CommandLine

/-- Run a command line over files and an environment.  Settings that cannot be
loaded end the run before its command begins. -/
def run (read : FileReader) (environment : List (String × String)) (arguments : List String) :
    RunResult :=
  match parse arguments with
  | .error error => RunResult.ofUsageError error
  | .ok invocation =>
      match Settings.load? read invocation.settingsFile environment with
      | none => RunResult.silent CommandError.exitStatus
      | some settings =>
          match invocation.command.run read Catalog.builtin (.ofPretty settings.pretty) with
          | .error _ => RunResult.silent CommandError.exitStatus
          | .ok output => ⟨output.body ++ "\n", output.verdict.exitStatus⟩

end CommandLine

end FlowPlan
