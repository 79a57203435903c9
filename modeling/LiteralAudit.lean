import LiteralAudit.Audit
import LiteralAudit.Binary64
import LiteralAudit.Binary64.Shortest
import LiteralAudit.Candidate
import LiteralAudit.CommandLine.Complaint
import LiteralAudit.CommandLine.Help
import LiteralAudit.CommandLine.Reader
import LiteralAudit.CommandLine.Similarity
import LiteralAudit.CommandLine.Slot
import LiteralAudit.CommandLine.Usage
import LiteralAudit.FileTree
import LiteralAudit.Finding
import LiteralAudit.Host
import LiteralAudit.Json.Fault
import LiteralAudit.Json.Numbers
import LiteralAudit.Json.Reader
import LiteralAudit.Json.Skim
import LiteralAudit.Json.Strings
import LiteralAudit.Json.Writer
import LiteralAudit.Literal
import LiteralAudit.Main
import LiteralAudit.Message
import LiteralAudit.Path
import LiteralAudit.Path.Letters
import LiteralAudit.Program
import LiteralAudit.Proofs.Audit.Keys
import LiteralAudit.Proofs.Audit.Outcome
import LiteralAudit.Proofs.Audit.Report
import LiteralAudit.Proofs.Audit.Sources
import LiteralAudit.Proofs.Audit.Survey
import LiteralAudit.Proofs.Audit.Totals
import LiteralAudit.Proofs.Candidate
import LiteralAudit.Proofs.Candidate.FirstSeen
import LiteralAudit.Proofs.Candidate.Layout
import LiteralAudit.Proofs.Candidate.Tightened
import LiteralAudit.Proofs.CommandLine.Details
import LiteralAudit.Proofs.CommandLine.Reader
import LiteralAudit.Proofs.CommandLine.Written
import LiteralAudit.Proofs.FileTree.Absolute
import LiteralAudit.Proofs.FileTree.NewFile
import LiteralAudit.Proofs.Finding.Concatenation
import LiteralAudit.Proofs.Finding.Exact
import LiteralAudit.Proofs.Finding.Growth
import LiteralAudit.Proofs.Finding.Live
import LiteralAudit.Proofs.Finding.Rescan
import LiteralAudit.Proofs.Finding.Tuning
import LiteralAudit.Proofs.Host
import LiteralAudit.Proofs.Json.Extent
import LiteralAudit.Proofs.Json.Grammar
import LiteralAudit.Proofs.Json.Numerals
import LiteralAudit.Proofs.Json.Passed
import LiteralAudit.Proofs.Json.Rows
import LiteralAudit.Proofs.Json.Skim
import LiteralAudit.Proofs.Json.Strings
import LiteralAudit.Proofs.Json.Values
import LiteralAudit.Proofs.Literal.Attempt
import LiteralAudit.Proofs.Literal.Grammar
import LiteralAudit.Proofs.Literal.Layout
import LiteralAudit.Proofs.Literal.Leftmost
import LiteralAudit.Proofs.Literal.Pass
import LiteralAudit.Proofs.Literal.Search
import LiteralAudit.Proofs.Literal.SelfContained
import LiteralAudit.Proofs.Literal.Span
import LiteralAudit.Proofs.Literal.Substitution
import LiteralAudit.Proofs.Path
import LiteralAudit.Proofs.Path.Letters
import LiteralAudit.Proofs.Program
import LiteralAudit.Proofs.Program.Exit
import LiteralAudit.Proofs.Program.Figures
import LiteralAudit.Proofs.Program.Sources
import LiteralAudit.Proofs.Program.Starter
import LiteralAudit.Proofs.Replacements
import LiteralAudit.Proofs.Replacements.History
import LiteralAudit.Proofs.Replacements.Spelling
import LiteralAudit.Proofs.Settings.Exact
import LiteralAudit.Proofs.Settings.Extent
import LiteralAudit.Proofs.Settings.Keys
import LiteralAudit.Proofs.Settings.Lists
import LiteralAudit.Proofs.Settings.Members
import LiteralAudit.Proofs.Settings.Nearest
import LiteralAudit.Proofs.Settings.Objects
import LiteralAudit.Proofs.Settings.RoundTrip
import LiteralAudit.Proofs.Settings.Rules
import LiteralAudit.Proofs.Starter
import LiteralAudit.Proofs.Starter.Once
import LiteralAudit.Proofs.Steps
import LiteralAudit.Proofs.Styled
import LiteralAudit.Proofs.Wording
import LiteralAudit.Proofs.Wording.Unambiguous
import LiteralAudit.Replacements
import LiteralAudit.Replacements.Source
import LiteralAudit.Replacements.Standard
import LiteralAudit.Settings
import LiteralAudit.Settings.Reader
import LiteralAudit.Settings.Source
import LiteralAudit.Settings.Writer
import LiteralAudit.Starter
import LiteralAudit.Styled
import LiteralAudit.Terminal
import LiteralAudit.Text
import LiteralAudit.Text.Blank
import LiteralAudit.Text.Position
import LiteralAudit.Text.Printable
import LiteralAudit.Text.Quoted
import LiteralAudit.Trouble
import LiteralAudit.Wording
