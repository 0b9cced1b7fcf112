import FlowPlan.Task.Kind

namespace FlowPlan

/-!
How arguments are read.

A level of the command line has options, each with one value, at most one
operand, and possibly subcommands.  The value of a parameter is checked when
the next argument that names a parameter settles it, or at the end of its
level; an unknown argument is reported before any value is checked.  After
`--` every argument is an operand.
-/

inductive UsageError where
  | missingRequiredArgument
  | unknownArgument
  | invalidSubcommand
  | missingSubcommand
  | valueValidation
  | invalidValue
  | argumentConflict
  | tooManyValues
  | displayHelp
  | displayVersion
  | displayHelpOnMissingArgument
  deriving DecidableEq, Repr

namespace UsageError

/-- Asking for help or the version is no failure. -/
def exitStatus : UsageError -> Nat
  | .displayHelp => 0
  | .displayVersion => 0
  | _ => 2

end UsageError

/-- What the value of a parameter must be. -/
inductive ValueKind where
  | text
  | path
  | taskKind
  deriving DecidableEq, Repr

namespace ValueKind

def check (value : String) : ValueKind -> Except UsageError Unit
  | .text => .ok ()
  | .path => if value = "" then .error .invalidValue else .ok ()
  | .taskKind => if (TaskKind.ofName? value).isSome then .ok () else .error .valueValidation

end ValueKind

structure Parameter where
  name : String
  kind : ValueKind
  deriving DecidableEq, Repr

/-- One level of the command line. -/
structure Grammar where
  options : List Parameter
  operand : Option Parameter
  required : List String
  versioned : Bool
  subcommands : List String

/-- How far the reading of a level has come. -/
structure Progress where
  /-- The parameters that are settled, with their values. -/
  given : List (String × String)
  /-- The parameter last named, with its value once that is known. -/
  pending : Option (Parameter × Option String)
  operandSeen : Bool
  operandsOnly : Bool

namespace Progress

def start : Progress := ⟨[], none, false, false⟩

def value? (progress : Progress) (name : String) : Option String :=
  (progress.given.find? (fun parameter => parameter.1 == name)).map Prod.snd

/-- The last option still waits for its value. -/
def awaitsValue (progress : Progress) : Bool :=
  match progress.pending with
  | some (_, none) => true
  | _ => false

/-- Accept a parameter, which may be given once. -/
def accept (progress : Progress) (parameter : Parameter) (value : String) :
    Except UsageError Progress :=
  if (progress.value? parameter.name).isSome then .error .argumentConflict
  else do
    parameter.kind.check value
    .ok { progress with given := progress.given ++ [(parameter.name, value)], pending := none }

/-- Settle the parameter last named. -/
def settle (progress : Progress) : Except UsageError Progress :=
  match progress.pending with
  | none => .ok progress
  | some (_, none) => .error .invalidValue
  | some (parameter, some value) => progress.accept parameter value

end Progress

namespace Grammar

/-- The name that asks for help on the subcommands. -/
def helpCommand : String := "help"

def isSubcommand (grammar : Grammar) (argument : String) : Bool :=
  grammar.subcommands.contains argument
    || (!grammar.subcommands.isEmpty && argument == helpCommand)

def option? (grammar : Grammar) (name : String) : Option Parameter :=
  grammar.options.find? (fun parameter => parameter.name == name)

/-- The name of a long option, and its value where one is attached. -/
def splitLong (text : List Char) : String × Option String :=
  let name := String.ofList (text.takeWhile (fun char => char != '='))
  match text.dropWhile (fun char => char != '=') with
  | [] => (name, none)
  | _ :: value => (name, some (String.ofList value))

/-- A flag that shows something and ends the reading. -/
def showing (progress : Progress) (attached : Option String) (shown : UsageError) :
    Except UsageError Progress :=
  match attached with
  | some _ => .error .tooManyValues
  | none => do
      let _ <- progress.settle
      .error shown

def readLong (grammar : Grammar) (progress : Progress) (text : List Char) :
    Except UsageError Progress :=
  let (name, attached) := splitLong text
  match grammar.option? name with
  | some parameter => do
      let settled <- progress.settle
      match attached with
      | some value => settled.accept parameter value
      | none => .ok { settled with pending := some (parameter, none) }
  | none =>
      if name = "help" then showing progress attached .displayHelp
      else if name = "version" ∧ grammar.versioned then showing progress attached .displayVersion
      else .error .unknownArgument

def readShort (grammar : Grammar) (progress : Progress) (flag : Char) :
    Except UsageError Progress :=
  if flag = 'h' then showing progress none .displayHelp
  else if flag = 'V' ∧ grammar.versioned then showing progress none .displayVersion
  else .error .unknownArgument

/-- An argument that no parameter is left for. -/
def surplus (grammar : Grammar) (progress : Progress) (argument : String) : UsageError :=
  if grammar.subcommands.isEmpty || (progress.operandsOnly && grammar.isSubcommand argument) then
    .unknownArgument
  else .invalidSubcommand

def readOperand (grammar : Grammar) (progress : Progress) (argument : String) :
    Except UsageError Progress :=
  match grammar.operand, progress.operandSeen with
  | some parameter, false => do
      let settled <- progress.settle
      .ok { settled with pending := some (parameter, some argument), operandSeen := true }
  | _, _ => .error (grammar.surplus progress argument)

/-- Read one argument that enters no subcommand. -/
def readArgument (grammar : Grammar) (progress : Progress) (argument : String) :
    Except UsageError Progress :=
  if progress.operandsOnly then grammar.readOperand progress argument
  else
    match argument.toList with
    | ['-', '-'] => .ok { progress with operandsOnly := true }
    | '-' :: '-' :: text => grammar.readLong progress text
    | '-' :: flag :: _ => grammar.readShort progress flag
    | _ =>
        match progress.pending with
        | some (parameter, none) =>
            .ok { progress with pending := some (parameter, some argument) }
        | _ => grammar.readOperand progress argument

/-- Read a level up to a subcommand or its end: what it gives, and the
subcommand with the arguments that belong to it. -/
def read (grammar : Grammar) (progress : Progress) :
    List String -> Except UsageError (Progress × Option (String × List String))
  | [] => .ok (progress, none)
  | argument :: rest =>
      if !progress.operandsOnly && !progress.awaitsValue && grammar.isSubcommand argument then
        .ok (progress, some (argument, rest))
      else do
        let progress <- grammar.readArgument progress argument
        read grammar progress rest

/-- Settle what is pending and require what must be given. -/
def finish (grammar : Grammar) (progress : Progress) : Except UsageError Progress := do
  let settled <- progress.settle
  if grammar.required.all (fun name => (settled.value? name).isSome) then .ok settled
  else .error .missingRequiredArgument

/-- Asking for help names at most one subcommand. -/
def help (grammar : Grammar) : List String -> UsageError
  | [] => .displayHelp
  | [name] => if grammar.isSubcommand name then .displayHelp else .invalidSubcommand
  | _ => .invalidSubcommand

end Grammar

end FlowPlan
