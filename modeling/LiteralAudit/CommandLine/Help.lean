import LiteralAudit.CommandLine.Usage

/-!
The pages that explain the command line. A part of a page is a heading and a list of
entries. On the short page an explanation stands beside its entry, and all explanations
of a part begin in one column; on the long page it stands below its entry.
-/

namespace LiteralAudit.CommandLine

def programVersion : Text := "0.1.0".toList

/-- The variable that names a settings file. -/
def configVariable : Text := "I18N_AUDIT_CONFIG".toList

/-- The pages. The two pages about the whole program show the value of the variable
that names a settings file. -/
inductive Page where
  | short (config : Option Text)
  | long (config : Option Text)
  | init
  | help
deriving DecidableEq, Repr

/-- The text with its further lines moved to the right. -/
def indentFurther (width : Nat) (t : Text) : Text :=
  t.flatMap fun c => if c = '\n' then '\n' :: List.replicate width ' ' else [c]

/-- Something that a page explains. -/
structure Entry where
  introduction : Message
  explanation : Text

namespace Entry

/-- The width of the space between an entry and an explanation beside it. -/
def gap : Nat := 2

/-- The column at which explanations begin below an entry. -/
def belowColumn : Nat := 10

/-- The first column that is free beside all entries. -/
def column (entries : List Entry) : Nat :=
  entries.foldr (fun entry column => max (entry.introduction.width + gap) column) 0

/-- The entry with its explanation beside it. -/
def beside (column : Nat) (entry : Entry) : Message :=
  entry.introduction ++
    [.words (List.replicate (column - entry.introduction.width) ' ' ++
      indentFurther column entry.explanation)]

/-- The entry with its explanation below it. -/
def below (entry : Entry) : Message :=
  entry.introduction ++
    [.words ('\n' :: List.replicate belowColumn ' ' ++
      indentFurther belowColumn entry.explanation)]

end Entry

namespace Page

/-- A part of a page with explanations beside the entries. -/
def list (heading : String) (entries : List Entry) : Message :=
  [.heading heading.toList, .words ['\n']] ++
    Message.join ['\n'] (entries.map (Entry.beside (Entry.column entries)))

/-- A part of a page with explanations below the entries. -/
def descriptions (heading : String) (entries : List Entry) : Message :=
  [.heading heading.toList, .words ['\n']] ++
    Message.join ['\n', '\n'] (entries.map Entry.below)

/-- What the program is for. -/
def about : Message :=
  [.words ("A CLI tool for finding hardcoded UI strings in React Native screens that still " ++
    "lack i18n wiring").toList]

/-- What the command that writes a settings file does. -/
def aboutInit : Text := "Initialize a new .i18nauditrc.json configuration file".toList

/-- What the command that explains commands does. -/
def aboutHelp : Text := "Print this message or the help of the given subcommand(s)".toList

/-- The commands with what they do. -/
def commands : Message :=
  let entry (name : String) (explanation : Text) : Entry :=
    ⟨[.words [' ', ' '], .literal name.toList], explanation⟩
  list "Commands:" [entry "init" aboutInit, entry "help" aboutHelp]

/-- The note about the variable that names a settings file. -/
def variableNote (config : Option Text) : Text :=
  "[env: ".toList ++ configVariable ++ ['='] ++ config.getD [] ++ [']']

/-- The names of an argument, and its value if it takes one. -/
def introduction (slot : Slot) : Message :=
  match slot with
  | .paths => [.words ([' ', ' '] ++ slot.shown)]
  | slot =>
    (match slot.shortName? with
      | some letter => [.words [' ', ' '], .literal ['-', letter], .words [',', ' ']]
      | none => [.words (List.replicate 6 ' ')]) ++
      [.literal slot.flag, .words slot.shownValue]

/-- What an argument is for, in one line. -/
def summary (config : Option Text) : Slot → Text
  | .paths => "Files to scan (overrides the configured file list)".toList
  | .config =>
    "Config file to use instead of searching for .i18nauditrc.json ".toList ++ variableNote config
  | .mappings => "JSON file with extra literal-to-key mappings".toList
  | .verbose => "Enable verbose output".toList
  | .help => "Print help (see more with '--help')".toList
  | .version => "Print version".toList

/-- What an argument is for, in as many lines as it takes. -/
def description (config : Option Text) : Slot → Text
  | .paths =>
    ("Files to scan (overrides the configured file list).\n\n" ++
     "A path spelled like a subcommand (e.g. a file named \x60init\x60) must follow \x60--\x60: " ++
     "\x60i18n-audit -- init\x60.").toList
  | .config =>
    "Config file to use instead of searching for .i18nauditrc.json\n\n".toList ++
      variableNote config
  | .help => "Print help (see a summary with '-h')".toList
  | slot => summary config slot

/-- What a page says. -/
def message : Page → Message
  | short config =>
    let entry (slot : Slot) : Entry := ⟨introduction slot, summary config slot⟩
    Message.ofBlocks [about, (Usage.program []).message, commands,
      list "Arguments:" [entry .paths], list "Options:" (Slot.named.map entry)]
  | long config =>
    let entry (slot : Slot) : Entry := ⟨introduction slot, description config slot⟩
    Message.ofBlocks [about, (Usage.program []).message, commands,
      descriptions "Arguments:" [entry .paths], descriptions "Options:" (Slot.named.map entry)]
  | init =>
    Message.ofBlocks [[.words aboutInit], (Usage.init []).message,
      list "Options:" [⟨introduction .help, "Print help".toList⟩]]
  | help =>
    Message.ofBlocks [[.words aboutHelp], Usage.help.message,
      list "Arguments:" [⟨[.words "  [COMMAND]...".toList],
        "Print help for the subcommand(s)".toList⟩]]

end Page

end LiteralAudit.CommandLine
