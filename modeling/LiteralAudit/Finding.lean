import LiteralAudit.Candidate
import LiteralAudit.Path
import LiteralAudit.Replacements
import LiteralAudit.Settings

/-!
What an audit finds in one file, and in a list of files. A file is wired for
localisation if the marker occurs anywhere in it. Its candidates are all counted,
but only the first few are looked up for a replacement.
-/

namespace LiteralAudit

/-- What is the same for all files of an audit. -/
structure Context where
  /-- A file that holds this text is wired for localisation. -/
  marker : Text
  filter : Filter
  /-- So many candidates of each file are looked up. -/
  previewLimit : Nat
  table : Replacements

/-- The context that settings ask for; their replacements are laid over a table. -/
def Settings.context (s : Settings) (table : Replacements) : Context where
  marker := s.marker
  filter := s.filter
  previewLimit := s.previewLimit
  table := table.layer s.mappings.entries

/-- A literal and what to write in its place. -/
structure Suggestion where
  literal : Text
  expression : Text
deriving DecidableEq, Repr

/-- What was found in a file. -/
structure Finding where
  path : Path
  /-- Whether the marker occurs in the file. -/
  wired : Bool
  /-- The number of different candidates. -/
  candidateCount : Nat
  /-- Replacements for those of the first candidates that have one. -/
  suggestions : List Suggestion
deriving DecidableEq, Repr

namespace Finding

/-- The suggestions for a list of candidates. -/
def suggestionsFor (table : Replacements) (literals : List Text) : List Suggestion :=
  literals.filterMap fun literal => (table.find? literal).map (Suggestion.mk literal)

/-- What there is to find in a text. -/
def ofText (context : Context) (path : Path) (source : Text) : Finding :=
  let found := candidates context.filter source
  { path
    wired := source.holds context.marker
    candidateCount := found.length
    suggestions := suggestionsFor context.table (found.take context.previewLimit) }

/-- Whether the file still has to be wired. Both of the lines that this takes are
missing together. -/
def unwired (f : Finding) : Bool := !f.wired

end Finding

/-- What was found in a list of files. -/
structure Survey where
  /-- The findings in the files of the list, in its order. -/
  findings : List Finding
  /-- The paths of the list that name no file, in its order. -/
  skipped : List Path
deriving DecidableEq, Repr

namespace Survey

def empty : Survey := ⟨[], []⟩

/-- The survey with one more finding in front. -/
def consFinding (finding : Finding) (s : Survey) : Survey :=
  { s with findings := finding :: s.findings }

/-- The survey with one more path without a file in front. -/
def consSkipped (path : Path) (s : Survey) : Survey := { s with skipped := path :: s.skipped }

/-- The number of files that still have to be wired. -/
def unwiredCount (s : Survey) : Nat := s.findings.countP Finding.unwired

/-- The candidates of each file, counted together. -/
def candidateSum (s : Survey) : Nat :=
  s.findings.foldr (fun finding total => finding.candidateCount + total) 0

/-- The bound of a total. Totals are kept in words of 64 bits. -/
def totalBound : Nat := Nat.pow 2 64

/-- The number of candidates in all files together, as a total. A total that reaches
the bound starts again at zero. -/
def candidateTotal (s : Survey) : Nat := s.candidateSum % totalBound

/-- Below the bound the total is the sum. -/
theorem candidateTotal_eq_candidateSum {s : Survey} (h : s.candidateSum < totalBound) :
    s.candidateTotal = s.candidateSum := Nat.mod_eq_of_lt h

end Survey

end LiteralAudit
