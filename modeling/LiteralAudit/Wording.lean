import LiteralAudit.Finding
import LiteralAudit.Path.Letters
import LiteralAudit.Styled

/-!
The words of the report. The report itself has a heading, a section for each
file and an ending. The details that can be asked for besides are a warning for
each skipped path and two lines of figures.
-/

namespace LiteralAudit

/-- The words of a report that settings choose. -/
structure Labels where
  appName : Text
  marker : Text
  importStatement : Text
  hookStatement : Text
  guideFile : Text
deriving DecidableEq, Repr

def Settings.labels (s : Settings) : Labels :=
  ⟨s.appName, s.marker, s.importStatement, s.hookStatement, s.guideFile⟩

namespace Wording

/-- The mark of something that is as it should be. -/
def successMark : Text := ['✅']

/-- The mark of something that is missing. -/
def failureMark : Text := ['❌']

/-- The width of the rule under the heading. -/
def ruleWidth : Nat := 60

variable (colour : Bool)

/-- The heading of a report. -/
def header (labels : Labels) : Text :=
  Text.line (styled colour [.bold] ("🌍 i18n Checker - ".toList ++ labels.appName)) ++
    Text.line (List.replicate ruleWidth '=')

/-- The ending of a report. -/
def footer (labels : Labels) : Text :=
  ['\n'] ++ Text.line (successMark ++ [' '] ++
    styled colour [.bold, .green] "Check complete!".toList) ++
  ['\n'] ++ Text.line ("See ".toList ++ styled colour [.cyan] labels.guideFile ++
    " for full translation guide".toList)

/-- A line that an unwired file is told to add. -/
def missingLine (statement : Text) : Text :=
  Text.line ("  ".toList ++ failureMark ++ [' '] ++ styled colour [.red] "Missing:".toList ++
    [' '] ++ statement)

/-- What a section says about the wiring of its file. -/
def wiring (labels : Labels) (finding : Finding) : Text :=
  if finding.unwired then
    missingLine colour labels.importStatement ++ missingLine colour labels.hookStatement
  else
    Text.line ("  ".toList ++ successMark ++ [' '] ++
      styled colour [.green] (labels.marker ++ " imported".toList))

/-- The line of a suggestion. -/
def suggestionLine (s : Suggestion) : Text :=
  Text.line ("    ".toList ++ s.literal ++ " → ".toList ++ styled colour [.cyan] s.expression)

/-- The section of a file. Candidates are mentioned only if there are any. -/
def fileSection (labels : Labels) (finding : Finding) : Text :=
  ['\n'] ++ Text.line ("📄 ".toList ++ styled colour [.bold] finding.path.shown) ++
  wiring colour labels finding ++
  if finding.candidateCount = 0 then []
  else
    Text.line ("  Found ".toList ++ styled colour [.yellow] (Text.ofNat finding.candidateCount) ++
      " potential hardcoded strings".toList) ++
    finding.suggestions.flatMap (suggestionLine colour)

/-- The warnings about skipped paths. -/
def skippedWarnings (paths : List Path) : Text :=
  paths.flatMap fun path =>
    Text.line (styled colour [.bold, .yellow] "warning:".toList ++
      " File not found, skipped: ".toList ++ path.shown)

/-- The two lines of figures. -/
def summary (survey : Survey) (table : Replacements) : Text :=
  let scanned := survey.findings.length
  Text.line (styled colour [.bold] "summary:".toList ++ [' '] ++ Text.ofNat scanned ++ [' '] ++
    (if scanned = 1 then "file".toList else "files".toList) ++ " scanned, ".toList ++
    Text.ofNat survey.skipped.length ++ " skipped, ".toList ++
    Text.ofNat survey.unwiredCount ++ " missing i18n wiring, ".toList ++
    Text.ofNat survey.candidateTotal ++ " candidate strings".toList) ++
  if table.isEmpty then
    Text.line (styled colour [.bold, .yellow] "warning:".toList ++
      " no mappings loaded, suggestions are disabled".toList)
  else
    Text.line (styled colour [.bold] "summary:".toList ++ [' '] ++ Text.ofNat table.size ++
      " mappings loaded".toList)

/-- The details of an audit. -/
def details (survey : Survey) (table : Replacements) : Text :=
  skippedWarnings colour survey.skipped ++ summary colour survey table

end Wording

end LiteralAudit
