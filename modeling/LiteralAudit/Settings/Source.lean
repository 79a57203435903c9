import LiteralAudit.Host
import LiteralAudit.Settings.Reader
import LiteralAudit.Trouble

/-!
Where settings come from: a file that is named, or else the nearest settings
file above a directory, or else nowhere, and then they are the standard ones.
The search goes up from a directory to the ones above it and ends at the first
that holds `.git`, which is the last one to be looked into.
-/

namespace LiteralAudit.Settings

variable {m : Type → Type} [Monad m] (host : Host m)

/-- The name that marks the uppermost directory of a search. -/
def boundaryName : Path := .of ".git"

/-- The settings file of the first directory that has one, none of those before it
being the boundary. -/
def firstFile? : List Path → m (Option Path)
  | [] => return none
  | directory :: outer => do
    if ← host.isPresent (Path.join directory fileName) then
      return some (Path.join directory fileName)
    else if ← host.isPresent (Path.join directory boundaryName) then
      return none
    else
      firstFile? outer

/-- The nearest settings file, from a directory upwards. -/
def nearestFile? (directory : Path) : m (Option Path) :=
  firstFile? host (Path.ancestors directory)

/-- The settings that a text holds, if they obey the rules. -/
def check (order : KeyOrder) (path : Path) (text : Text) : Except Trouble Settings :=
  match ofText text with
  | .error fault => .error (.malformed .settings path text fault)
  | .ok s =>
    match s.violation? order with
    | some violation => .error (.violation violation)
    | none => .ok s

/-- The settings in a file. -/
def load (path : Path) : m (Except Trouble Settings) := do
  match ← host.readText path with
  | .error fault => return .error (.unreadable .settings path fault)
  | .ok text => return check (← host.keyOrder) path text

/-- Settings, and whether a file gave them. -/
structure Found where
  settings : Settings
  fromFile : Bool
deriving DecidableEq

/-- The settings that apply in a directory. -/
def discover (directory : Path) : m (Except Trouble Found) := do
  match ← nearestFile? host directory with
  | some path => return (← load host path).map fun s => ⟨s, true⟩
  | none => return .ok ⟨standard, false⟩

end LiteralAudit.Settings
