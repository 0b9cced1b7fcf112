import FlowPlan.CommandLine

/-!
The program: reads its files and variables, prints what a run writes, and ends
with its status.
-/

/-- The environment is asked for the variables of the known settings, in capitals. -/
def FlowPlan.variableNames : List String :=
  ["output", "output__pretty", "log_filter"].map (fun key =>
    (FlowPlan.Settings.environmentMark ++ key).toUpper)

/-- Read a file under its path, if it can be read. -/
def FlowPlan.readFile? (path : String) : IO (Option (String × ByteArray)) := do
  try
    let bytes : ByteArray <- IO.FS.readBinFile path
    return some (path, bytes)
  catch _ => return none

/-- The files that a command line names. -/
def FlowPlan.namedFiles (arguments : List String) : List String :=
  match FlowPlan.CommandLine.parse arguments with
  | .ok invocation =>
      invocation.command.file?.toList ++ invocation.settingsFile.toList
        ++ (invocation.settingsFile.bind FlowPlan.Settings.extended?).toList
  | .error _ => []

def main (arguments : List String) : IO UInt32 := do
  let bindings <- FlowPlan.variableNames.filterMapM (fun name => do
    let value <- IO.getEnv name
    return value.map (fun value => (name, value)))
  let files <- (FlowPlan.namedFiles arguments).filterMapM FlowPlan.readFile?
  let read := fun path => (files.find? (fun file => file.1 == path)).map Prod.snd
  let result := FlowPlan.CommandLine.run read bindings arguments
  IO.print result.output
  return UInt32.ofNat result.exitStatus
