import LiteralAudit.CommandLine.Slot
import LiteralAudit.Message

/-!
The line that reminds a user how the program is called. It shows the arguments that
were in use when the reminder became necessary.
-/

namespace LiteralAudit.CommandLine

/-- The name of the program. -/
def programName : Text := "i18n-audit".toList

/-- What the line shows. -/
inductive Usage where
  /-- With the given arguments; in general if there are none. -/
  | program (used : List Slot)
  /-- With a flag, and a choice among all arguments of an audit. -/
  | choice (flag : Slot)
  /-- The command that writes a settings file, with the given flags. -/
  | init (used : List Slot)
  /-- The command that explains commands. -/
  | help
deriving DecidableEq, Repr

namespace Usage

/-- The arguments of an audit. -/
def auditSlots : List Slot := [.paths, .config, .mappings, .verbose]

/-- The choice among the arguments of an audit. -/
def alternatives : Text :=
  ['<'] ++ List.intercalate ['|'] (auditSlots.map fun slot =>
    if slot = .paths then "PATHS".toList else slot.shown) ++ ['>']

/-- The given flags and options, each once, each behind a space. -/
def flagList (used : List Slot) : Message :=
  (used.filter (· ≠ .paths)).eraseDups.flatMap fun slot =>
    [.words [' '], .literal slot.flag, .words slot.shownValue]

/-- The part of the line behind its heading. -/
def body : Usage → Message
  | program [] =>
    [.literal programName, .words " [OPTIONS] [PATHS]...\n       ".toList, .literal programName,
      .words " <COMMAND>".toList]
  | program used =>
    [.literal programName] ++ flagList used ++
      [.words (if .paths ∈ used then " <PATHS>...".toList else " [PATHS]...".toList)]
  | choice flag =>
    [.literal programName] ++ flagList ([flag].filter (· ∉ auditSlots)) ++
      [.words (' ' :: alternatives)]
  | init used => [.literal (programName ++ " init".toList)] ++ flagList used
  | help => [.literal (programName ++ " help".toList), .words " [COMMAND]...".toList]

/-- The whole line. -/
def message (usage : Usage) : Message := [.heading "Usage:".toList, .words [' ']] ++ usage.body

end Usage

end LiteralAudit.CommandLine
