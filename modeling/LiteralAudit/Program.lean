import LiteralAudit.Audit
import LiteralAudit.CommandLine.Reader
import LiteralAudit.Starter

/-!
The program as a whole: from the arguments and the variables around it to what
it writes and its exit code.
-/

namespace LiteralAudit.Program

/-- The variables that the program looks at. -/
structure Environment where
  /-- The settings file to use. -/
  config : Option Text
  /-- Whether colour is forced. -/
  forceColour : Option Text
  /-- Whether colour is not wanted. -/
  noColour : Option Text
deriving DecidableEq, Repr

/-- Colour is on in reports if it is forced by anything but a zero. -/
def Environment.colour (env : Environment) : Bool := env.forceColour.any (· ≠ ['0'])

/-- Colour is on in messages about the command line if it is forced and not unwanted. Any
text at all forces it, a zero too, and any text makes it unwanted. -/
def Environment.messageColour (env : Environment) : Bool :=
  env.forceColour.any (· ≠ []) && !env.noColour.any (· ≠ [])

/-- A message as it is written. -/
def Environment.written (env : Environment) (message : Message) : Text :=
  if env.messageColour then message.marked else message.streamed

/-- The exit code of a run that does not fail. -/
def exitCode : Status → Nat
  | .success => 0
  | .declined => 1

/-- The exit code of a run that fails. -/
def failureCode : Nat := 2

/-- What the user is told about a run that fails. -/
def failureMessage (trouble : Trouble) : Text :=
  Text.line ("Error: ".toList ++ trouble.describe)

variable {m : Type → Type} [Monad m] (host : Host m)

/-- Carries out a command line. Only an audit has details to tell, and it tells them
only if it succeeds. -/
def run (colour : Bool) (line : CommandLine) : m (Except Trouble Status) := do
  match line.task with
  | .initialise => Starter.create host colour [Path.dot]
  | .audit =>
    match ← Audit.run host colour line.options with
    | .error trouble => return .error trouble
    | .ok result =>
      if line.options.verbose then Audit.sayDetails host colour result
      return .ok .success

/-- Reads the arguments, carries them out and answers with the exit code. -/
def launch (env : Environment) (arguments : List Text) : m Nat := do
  match CommandLine.read env.config arguments with
  | .error complaint =>
    host.say (if complaint.isAnswer then .output else .errors) (env.written complaint.message)
    return complaint.exitCode
  | .ok line =>
    match ← run host env.colour line with
    | .ok status => return exitCode status
    | .error trouble =>
      host.say .errors (failureMessage trouble)
      return failureCode

end LiteralAudit.Program
