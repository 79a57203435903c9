import LiteralAudit.Text

/-!
What can be given on the command line: paths, two options with a value, and
three flags.
-/

namespace LiteralAudit.CommandLine

inductive Slot where
  | paths
  | config
  | mappings
  | verbose
  | help
  | version
deriving DecidableEq, Repr

namespace Slot

/-- The options and flags, which all have a long name. -/
def named : List Slot := [config, mappings, verbose, help, version]

/-- The long name of an option or a flag. -/
def longName : Slot → Text
  | paths => []
  | config => "config".toList
  | mappings => "mappings".toList
  | verbose => "verbose".toList
  | help => "help".toList
  | version => "version".toList

/-- The option or flag with a long name. -/
def ofLongName? (name : Text) : Option Slot := named.find? fun slot => slot.longName = name

/-- The short name of an option or a flag, if it has one. -/
def shortName? : Slot → Option Char
  | config => some 'c'
  | verbose => some 'v'
  | help => some 'h'
  | version => some 'V'
  | paths | mappings => none

/-- The option or flag with a short name. -/
def ofShortName? (letter : Char) : Option Slot :=
  named.find? fun slot => slot.shortName? = some letter

/-- Whether a value belongs to it. -/
def takesValue : Slot → Bool
  | config | mappings => true
  | paths | verbose | help | version => false

/-- The long name with its dashes. -/
def flag (slot : Slot) : Text := "--".toList ++ slot.longName

/-- The value that belongs to it, as it is shown behind its name. -/
def shownValue : Slot → Text
  | config => " <CONFIG>".toList
  | mappings => " <MAPPINGS>".toList
  | paths | verbose | help | version => []

/-- How it is shown to the user. -/
def shown (slot : Slot) : Text :=
  match slot with
  | paths => "[PATHS]...".toList
  | slot => slot.flag ++ slot.shownValue

end Slot

end LiteralAudit.CommandLine
