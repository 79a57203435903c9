import LiteralAudit.FileTree
import LiteralAudit.Json.Fault
import LiteralAudit.Path.Letters
import LiteralAudit.Settings

/-!
What makes a run fail. The message about it goes from what was attempted to what
was in the way.
-/

namespace LiteralAudit

/-- The kinds of files that a run reads. -/
inductive Document where
  | settings
  | mappings
  | source
deriving DecidableEq, Repr

inductive Trouble where
  /-- It is not known where the program runs. -/
  | noDirectory (fault : AccessFault)
  | unreadable (document : Document) (path : Path) (fault : AccessFault)
  | malformed (document : Document) (path : Path) (text : Text) (fault : Json.Fault)
  | violation (violation : Settings.Violation)
  | unwritable (path : Path) (fault : AccessFault)
deriving DecidableEq, Repr

def Document.describe : Document → Text
  | .settings => "config file".toList
  | .mappings => "mapping file".toList
  | .source => "file".toList

/-- A path in a message about its form. That of a settings file is quoted. -/
def Document.shownPath : Document → Path → Text
  | .settings, path => path.quoted
  | _, path => path.shown

namespace Trouble

/-- What was attempted. A broken rule says everything itself. -/
def headline : Trouble → Text
  | noDirectory _ => "Failed to get current directory".toList
  | unreadable document path _ =>
    "Failed to read ".toList ++ document.describe ++ ": ".toList ++ path.shown
  | malformed document path _ _ =>
    "Failed to parse ".toList ++ document.describe ++ ": ".toList ++ document.shownPath path
  | violation v => v.describe
  | unwritable path _ => "Failed to write ".toList ++ path.shown

/-- What was in the way, if the headline does not say it. -/
def reason : Trouble → Option Text
  | noDirectory fault => some fault.describe
  | unreadable _ _ fault => some fault.describe
  | malformed _ _ text fault => some (fault.describe text)
  | violation _ => none
  | unwritable _ fault => some fault.describe

/-- The whole message. -/
def describe (trouble : Trouble) : Text :=
  match trouble.reason with
  | some reason => trouble.headline ++ ": ".toList ++ reason
  | none => trouble.headline

end Trouble

end LiteralAudit
