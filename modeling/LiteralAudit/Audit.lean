import LiteralAudit.Finding
import LiteralAudit.Host
import LiteralAudit.Replacements.Source
import LiteralAudit.Replacements.Standard
import LiteralAudit.Settings.Source
import LiteralAudit.Wording

/-!
The audit of a list of files. Files are looked at in the order of the list, and
each finding is handed on as soon as it is there. A path that names no file is
skipped; a file that cannot be read ends the audit, but what was handed on
before stays.
-/

namespace LiteralAudit

variable {m : Type → Type} [Monad m] (host : Host m)

namespace Finding

/-- What there is to find in the file that a path names; nothing if it names
none. -/
def ofFile (context : Context) (path : Path) : m (Except Trouble (Option Finding)) := do
  if ← host.isFile path then
    match ← host.readText path with
    | .error fault => return .error (.unreadable .source path fault)
    | .ok source => return .ok (some (ofText context path source))
  else
    return .ok none

end Finding

namespace Survey

/-- The survey of the files that paths name. Each finding is handed on before the
next file is looked at. -/
def ofFiles (context : Context) (deliver : Finding → m Unit) :
    List Path → m (Except Trouble Survey)
  | [] => return .ok empty
  | path :: paths => do
    match ← Finding.ofFile host context path with
    | .error trouble => return .error trouble
    | .ok none => return (← ofFiles context deliver paths).map (consSkipped path)
    | .ok (some finding) =>
      deliver finding
      return (← ofFiles context deliver paths).map (consFinding finding)

end Survey

/-- What a user can ask of an audit. -/
structure Options where
  /-- The files to look at; if there are none, those of the settings. -/
  paths : List Path
  /-- The settings file to use. -/
  config : Option Path
  /-- A file with further replacements. -/
  mappings : Option Path
  /-- Whether the details are wanted too. -/
  verbose : Bool
deriving DecidableEq, Repr

namespace Audit

/-- What is left of an audit after its report. -/
structure Result where
  survey : Survey
  table : Replacements

/-- The settings for an audit. A file that is named is used wherever it lies. -/
def settings (options : Options) : m (Except Trouble Settings) := do
  match options.config with
  | some path => Settings.load host path
  | none =>
    match ← host.directory with
    | .error fault => return .error (.noDirectory fault)
    | .ok directory => return (← Settings.discover host directory).map Settings.Found.settings

/-- The entries of the file with further replacements, if one is named. -/
def furtherEntries (options : Options) : m (Except Trouble (List (Text × Text))) := do
  match options.mappings with
  | some path => return (← Replacements.load host path).map Replacements.entries
  | none => return .ok []

/-- The context for given settings and further replacements. Those of the settings
are laid over the standard ones, and the further ones over both. -/
def context (s : Settings) (further : List (Text × Text)) : Context :=
  let base := s.context .standard
  { base with table := base.table.layer further }

/-- The files to look at. -/
def paths (options : Options) (s : Settings) : List Path :=
  if options.paths.isEmpty then s.files.map Path.ofText else options.paths

/-- Runs an audit and writes its report. Nothing is written before the settings and
all replacements are there; the ending is written only after the last file. -/
def run (colour : Bool) (options : Options) : m (Except Trouble Result) := do
  match ← settings host options with
  | .error trouble => return .error trouble
  | .ok s =>
    match ← furtherEntries host options with
    | .error trouble => return .error trouble
    | .ok further =>
      let context := context s further
      host.say .output (Wording.header colour s.labels)
      let deliver (finding : Finding) : m Unit :=
        host.say .output (Wording.fileSection colour s.labels finding)
      match ← Survey.ofFiles host context deliver (paths options s) with
      | .error trouble => return .error trouble
      | .ok survey =>
        host.say .output (Wording.footer colour s.labels)
        return .ok ⟨survey, context.table⟩

/-- Writes the details of an audit. -/
def sayDetails (colour : Bool) (result : Result) : m Unit :=
  host.say .errors (Wording.details colour result.survey result.table)

end Audit

end LiteralAudit
