import LiteralAudit.Proofs.Styled
import LiteralAudit.Wording

/-!
# Reports with and without colour

Each part of a report is put together from words of its own, which are plain, and from the
texts that it is given. If these are plain, too, the part without its styles is the part as
it is written when colour is off.
-/

namespace LiteralAudit

/-- Texts in which nothing begins a span. -/
def ArePlain (texts : List Text) : Prop := ∀ t ∈ texts, t.IsPlain

/-- The texts in the words that settings choose. -/
def Labels.texts (labels : Labels) : List Text :=
  [labels.appName, labels.marker, labels.importStatement, labels.hookStatement,
    labels.guideFile]

/-- The texts in a finding, as a report shows them. -/
def Finding.texts (finding : Finding) : List Text :=
  finding.path.shown :: finding.suggestions.flatMap fun s => [s.literal, s.expression]

namespace Text

/-- One line: its line end is the only one in it. -/
def IsLine (t : Text) : Prop := ∃ content, '\n' ∉ content ∧ t = line content

theorem not_mem_ofNat (n : Nat) : '\n' ∉ ofNat n := by
  intro h
  have hdigit := isDigit_of_mem_ofNat h
  revert hdigit
  decide

end Text

namespace Wording

open Text

variable (colour : Bool)

theorem leaves_header {labels : Labels} (h : ArePlain labels.texts) :
    Leaves (header colour labels) (header false labels) := by
  have hname : labels.appName.IsPlain := h _ (by simp [Labels.texts])
  have htitle : IsPlain ("🌍 i18n Checker - ".toList ++ labels.appName) :=
    isPlain_append.2 ⟨by decide, hname⟩
  exact (Leaves.styled colour [.bold] htitle).line.append (.of_isPlain (by decide))

theorem leaves_footer {labels : Labels} (h : ArePlain labels.texts) :
    Leaves (footer colour labels) (footer false labels) := by
  have hguide : labels.guideFile.IsPlain := h _ (by simp [Labels.texts])
  have hdone : IsPlain "Check complete!".toList := by decide
  have hcomplete : Leaves (['\n'] ++ line (successMark ++ [' '] ++
      styled colour [.bold, .green] "Check complete!".toList)) _ :=
    (Leaves.of_isPlain (by decide)).append
      ((Leaves.of_isPlain (by decide)).append (.styled colour _ hdone)).line
  have hsee : Leaves (line ("See ".toList ++ styled colour [.cyan] labels.guideFile ++
      " for full translation guide".toList)) _ :=
    (((Leaves.of_isPlain (by decide)).append (.styled colour _ hguide)).append
      (.of_isPlain (by decide))).line
  exact (hcomplete.append (.of_isPlain (by decide))).append hsee

theorem leaves_missingLine {statement : Text} (h : statement.IsPlain) :
    Leaves (missingLine colour statement) (missingLine false statement) := by
  have hmissing : IsPlain "Missing:".toList := by decide
  have hmark : Leaves ("  ".toList ++ failureMark ++ [' ']) _ := .of_isPlain (by decide)
  exact (((hmark.append (.styled colour _ hmissing)).append (.of_isPlain (by decide))).append
    (.of_isPlain h)).line

theorem leaves_wiring {labels : Labels} (h : ArePlain labels.texts) (finding : Finding) :
    Leaves (wiring colour labels finding) (wiring false labels finding) := by
  have himport : labels.importStatement.IsPlain := h _ (by simp [Labels.texts])
  have hhook : labels.hookStatement.IsPlain := h _ (by simp [Labels.texts])
  have hmarker : labels.marker.IsPlain := h _ (by simp [Labels.texts])
  have himported : IsPlain (labels.marker ++ " imported".toList) :=
    isPlain_append.2 ⟨hmarker, by decide⟩
  unfold wiring
  cases finding.unwired with
  | true => exact (leaves_missingLine colour himport).append (leaves_missingLine colour hhook)
  | false => exact ((Leaves.of_isPlain (by decide)).append (.styled colour _ himported)).line

theorem leaves_suggestionLine {s : Suggestion} (hliteral : s.literal.IsPlain)
    (hexpression : s.expression.IsPlain) :
    Leaves (suggestionLine colour s) (suggestionLine false s) := by
  have harrow : Leaves ("    ".toList ++ s.literal ++ " → ".toList) _ :=
    .of_isPlain (isPlain_append.2 ⟨isPlain_append.2 ⟨by decide, hliteral⟩, by decide⟩)
  exact (harrow.append (.styled colour _ hexpression)).line

theorem leaves_fileSection {labels : Labels} (h : ArePlain labels.texts) {finding : Finding}
    (hfinding : ArePlain finding.texts) :
    Leaves (fileSection colour labels finding) (fileSection false labels finding) := by
  have hpath : finding.path.shown.IsPlain := hfinding _ (List.mem_cons_self ..)
  have hheading : Leaves (['\n'] ++
      line ("📄 ".toList ++ styled colour [.bold] finding.path.shown)) _ :=
    (Leaves.of_isPlain (by decide)).append
      ((Leaves.of_isPlain (by decide)).append (.styled colour _ hpath)).line
  refine (hheading.append (leaves_wiring colour h finding)).append ?_
  split
  · exact .nil
  · have hcount : Leaves (line ("  Found ".toList ++
        styled colour [.yellow] (Text.ofNat finding.candidateCount) ++
        " potential hardcoded strings".toList)) _ :=
      (((Leaves.of_isPlain (by decide)).append (.styled colour _ (isPlain_ofNat _))).append
        (.of_isPlain (by decide))).line
    refine hcount.append (.flatMap fun s hs => ?_)
    have hmem : ∀ t ∈ [s.literal, s.expression], t ∈ finding.texts :=
      fun t ht => List.mem_cons_of_mem _ (List.mem_flatMap.2 ⟨s, hs, ht⟩)
    exact leaves_suggestionLine colour (hfinding _ (hmem _ (by simp)))
      (hfinding _ (hmem _ (by simp)))

/-- A line of details begins with a styled word, and all behind it is written as it is. -/
theorem leaves_detail (styles : List Style) {tag rest : Text} (htag : tag.IsPlain)
    (hrest : rest.IsPlain) :
    Leaves (line (styled colour styles tag ++ rest)) (line (styled false styles tag ++ rest)) :=
  ((Leaves.styled colour styles htag).append (.of_isPlain hrest)).line

theorem leaves_skippedWarnings {paths : List Path} (h : ArePlain (paths.map Path.shown)) :
    Leaves (skippedWarnings colour paths) (skippedWarnings false paths) := by
  refine .flatMap fun p hp => ?_
  have hpath : p.shown.IsPlain := h _ (List.mem_map_of_mem hp)
  simp only [List.append_assoc]
  exact leaves_detail colour _ (by decide) (isPlain_append.2 ⟨by decide, hpath⟩)

/-- The figures hold no texts but numerals, so they are plain in any case. -/
theorem leaves_summary (survey : Survey) (table : Replacements) :
    Leaves (summary colour survey table) (summary false survey table) := by
  have hfiles : IsPlain (if survey.findings.length = 1 then "file".toList else "files".toList) := by
    split <;> decide
  have hscanned : IsPlain " scanned, ".toList := by decide
  have hskipped : IsPlain " skipped, ".toList := by decide
  have hunwired : IsPlain " missing i18n wiring, ".toList := by decide
  have hcandidates : IsPlain " candidate strings".toList := by decide
  have hloaded : IsPlain " mappings loaded".toList := by decide
  have hblank : IsPlain [' '] := by decide
  unfold summary
  refine Leaves.append ?_ ?_
  · simp only [List.append_assoc]
    refine leaves_detail colour _ (by decide) ?_
    simp only [isPlain_append, isPlain_ofNat, true_and]
    exact ⟨hblank, hblank, hfiles, hscanned, hskipped, hunwired, hcandidates⟩
  · split
    · exact leaves_detail colour _ (by decide) (by decide)
    · simp only [List.append_assoc]
      refine leaves_detail colour _ (by decide) ?_
      simp only [isPlain_append, isPlain_ofNat, true_and]
      exact ⟨hblank, hloaded⟩

theorem leaves_details {survey : Survey} (h : ArePlain (survey.skipped.map Path.shown))
    (table : Replacements) :
    Leaves (details colour survey table) (details false survey table) :=
  (leaves_skippedWarnings colour h).append (leaves_summary colour survey table)

/-- The figures of a survey, the first of the two lines. -/
def figures (survey : Survey) : Text :=
  Text.line (styled colour [.bold] "summary:".toList ++ [' '] ++
    Text.ofNat survey.findings.length ++ [' '] ++
    (if survey.findings.length = 1 then "file".toList else "files".toList) ++
    " scanned, ".toList ++ Text.ofNat survey.skipped.length ++ " skipped, ".toList ++
    Text.ofNat survey.unwiredCount ++ " missing i18n wiring, ".toList ++
    Text.ofNat survey.candidateTotal ++ " candidate strings".toList)

/-- With an entry in the table the last line says how many there are, and nobody is warned
that there are none. -/
theorem details_of_size_pos (survey : Survey) {table : Replacements} (h : 0 < table.size) :
    details colour survey table =
      skippedWarnings colour survey.skipped ++ (figures colour survey ++
        Text.line (styled colour [.bold] "summary:".toList ++ [' '] ++ Text.ofNat table.size ++
          " mappings loaded".toList)) := by
  have hempty : table.isEmpty = false := by
    rw [Replacements.isEmpty, List.isEmpty_eq_false_iff]
    exact List.ne_nil_of_length_pos h
  rw [details, summary, hempty]
  rfl

/-- The number of entries of a table, the second of the two lines if there are any. -/
def loaded (table : Replacements) : Text :=
  Text.line (styled colour [.bold] "summary:".toList ++ [' '] ++ Text.ofNat table.size ++
    " mappings loaded".toList)

theorem not_mem_tag (c : Bool) : '\n' ∉ styled c [.bold] "summary:".toList := by
  cases c <;> decide

theorem isLine_loaded (table : Replacements) : IsLine (loaded colour table) := by
  refine ⟨_, ?_, rfl⟩
  simp only [List.mem_append, not_or, not_mem_ofNat, not_mem_tag, not_false_iff, true_and,
    and_true]
  decide

end Wording

end LiteralAudit
