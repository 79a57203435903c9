import LiteralAudit.CommandLine.Help

/-!
Why a command line is not carried out, and what the user is told instead. Help
and the version are asked for in the same way as other arguments, and they end
the reading of the command line in the same way as a mistake does.
-/

namespace LiteralAudit.CommandLine

/-- A remark on an argument that is not known. -/
inductive Tip where
  | none
  /-- Something with a similar name is known. -/
  | similar (slot : Slot)
  /-- The argument can be made a path. -/
  | asPath
deriving DecidableEq, Repr

/-- Why the reading of a command line ends early. -/
inductive Complaint where
  | valueMissing (slot : Slot)
  | repeated (slot : Slot)
  | valueUnwanted (value : Text) (slot : Slot) (usage : Usage)
  | unknownArgument (argument : Text) (tip : Tip) (usage : Usage)
  | unknownCommand (name : Text) (usage : Usage)
  | help (page : Page)
  | version
deriving DecidableEq, Repr

namespace Complaint

/-- The front of a message about a mistake. -/
def opening (t : String) : Message := [.alarm "error:".toList, .words (' ' :: t.toList)]

/-- The last line of a message about a mistake. -/
def furtherHelp : Message :=
  [.words "For more information, try ".toList] ++ Message.cite (.literal Slot.help.flag) ++
    [.words ['.']]

/-- The block of a tip, if there is one. -/
def tipBlocks (argument : Text) (tip : Tip) : List Message :=
  let mark : Message := [.words [' ', ' '], .advice "tip:".toList]
  match tip with
  | .none => []
  | .similar slot =>
    [mark ++ [.words " a similar argument exists: ".toList] ++ Message.cite (.advice slot.flag)]
  | .asPath =>
    [mark ++ [.words " to pass ".toList] ++ Message.cite (.refused argument) ++
      [.words " as a value, use ".toList] ++
      Message.cite (.advice ("-- ".toList ++ argument))]

/-- What the user is told. The command that explains commands has no help of its own to
refer to. -/
def message : Complaint → Message
  | valueMissing slot =>
    Message.ofBlocks [opening "a value is required for " ++ Message.cite (.refused slot.shown) ++
      [.words " but none was supplied".toList], furtherHelp]
  | repeated slot =>
    Message.ofBlocks [opening "the argument " ++ Message.cite (.refused slot.shown) ++
      [.words " cannot be used multiple times".toList], (Usage.program []).message, furtherHelp]
  | valueUnwanted value slot usage =>
    Message.ofBlocks [opening "unexpected value " ++ Message.cite (.refused value) ++
      [.words " for ".toList] ++ Message.cite (.literal slot.shown) ++
      [.words " found; no more were expected".toList], usage.message, furtherHelp]
  | unknownArgument argument tip usage =>
    Message.ofBlocks ([opening "unexpected argument " ++ Message.cite (.refused argument) ++
      [.words " found".toList]] ++ tipBlocks argument tip ++ [usage.message, furtherHelp])
  | unknownCommand name usage =>
    Message.ofBlocks ([opening "unrecognized subcommand " ++ Message.cite (.refused name),
      usage.message] ++ if usage = .help then [] else [furtherHelp])
  | help page => page.message
  | version => [.words (Text.line (programName ++ [' '] ++ programVersion))]

/-- Whether the user got what they asked for. -/
def isAnswer : Complaint → Bool
  | help _ | version => true
  | _ => false

/-- The exit code of a run that ends with a complaint. -/
def exitCode (c : Complaint) : Nat := if c.isAnswer then 0 else 2

end Complaint

end LiteralAudit.CommandLine
