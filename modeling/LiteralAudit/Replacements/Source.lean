import LiteralAudit.Host
import LiteralAudit.Json.Reader
import LiteralAudit.Trouble

/-!
Replacements from a file: a JSON object whose keys are literals with their
quotes and whose values are expressions.
-/

namespace LiteralAudit.Replacements

/-- The table that a text holds. -/
def ofText (text : Text) : Except Json.Fault Replacements := Json.document Json.table text

/-- The table in a file. -/
def load {m : Type → Type} [Monad m] (host : Host m) (path : Path) :
    m (Except Trouble Replacements) := do
  match ← host.readText path with
  | .error fault => return .error (.unreadable .mappings path fault)
  | .ok text =>
    match ofText text with
    | .error fault => return .error (.malformed .mappings path text fault)
    | .ok table => return .ok table

end LiteralAudit.Replacements
