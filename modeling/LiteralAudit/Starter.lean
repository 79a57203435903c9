import LiteralAudit.Host
import LiteralAudit.Settings.Writer
import LiteralAudit.Trouble
import LiteralAudit.Styled

/-!
A settings file to start from. It holds the standard settings, and it is never
written over something that is there already.
-/

namespace LiteralAudit

/-- How a run ends that does not fail. -/
inductive Status where
  | success
  /-- The program declined to do what it was asked. -/
  | declined
deriving DecidableEq, Repr

namespace Starter

def alreadyThere : Text :=
  Text.line ("Error: ".toList ++ Settings.fileTitle ++ " already exists".toList)

def created (colour : Bool) : Text :=
  Text.line (styled colour [.green] ['✅'] ++ [' '] ++
    styled colour [.green] ("Created ".toList ++ Settings.fileTitle))

/-- Writes the settings file of a directory. -/
def create {m : Type → Type} [Monad m] (host : Host m) (colour : Bool) (directory : Path) :
    m (Except Trouble Status) := do
  let path := Path.join directory Settings.fileName
  if ← host.isPresent path then
    host.say .errors alreadyThere
    return .ok .declined
  else
    match ← host.write path (encodeText Settings.standardText) with
    | .error fault => return .error (.unwritable path fault)
    | .ok () =>
      host.say .output (created colour)
      return .ok .success

end Starter

end LiteralAudit
