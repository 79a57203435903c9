import LiteralAudit.Proofs.Program.Exit

/-!
# Figures that agree with the report

Sections are written one by one while the files are looked at, and the figures are made out of the
survey that is left at the end. Still the figures are those that a reader of the report can count:
the sections, the warnings, the sections in which the wiring is missing, and the numbers in their
lines about candidates. Only the last of them can be off, where the total does not fit into a word.
-/

namespace LiteralAudit

namespace Wording

/-! ## Sections as they are printed -/

/-- The lines about candidates in a section. -/
structure Found where
  /-- The number in the first line. -/
  count : Nat
  suggestions : List Suggestion

/-- What stands in a section. -/
structure Section where
  path : Path
  /-- Whether it has the two lines about what is missing, and not the line about what is there. -/
  isMissing : Bool
  found : Option Found

namespace Section

/-- The section as it is printed. -/
def text (colour : Bool) (labels : Labels) (s : Section) : Text :=
  ['\n'] ++ Text.line ("📄 ".toList ++ styled colour [.bold] s.path.shown) ++
  (if s.isMissing then
    missingLine colour labels.importStatement ++ missingLine colour labels.hookStatement
  else
    Text.line ("  ".toList ++ successMark ++ [' '] ++
      styled colour [.green] (labels.marker ++ " imported".toList))) ++
  match s.found with
  | none => []
  | some found =>
    Text.line ("  Found ".toList ++ styled colour [.yellow] (Text.ofNat found.count) ++
      " potential hardcoded strings".toList) ++
    found.suggestions.flatMap (suggestionLine colour)

/-- The number of candidates that the section tells of; zero if it has no line about them. -/
def count (s : Section) : Nat := s.found.elim 0 Found.count

/-- The numbers of the sections, taken together. -/
def sum (sections : List Section) : Nat := sections.foldr (fun s sum => s.count + sum) 0

/-- The section that is printed for a finding. -/
def ofFinding (finding : Finding) : Section where
  path := finding.path
  isMissing := finding.unwired
  found :=
    if finding.candidateCount = 0 then none
    else some ⟨finding.candidateCount, finding.suggestions⟩

theorem text_ofFinding (colour : Bool) (labels : Labels) (finding : Finding) :
    (ofFinding finding).text colour labels = fileSection colour labels finding := by
  unfold text fileSection wiring ofFinding
  by_cases h : finding.candidateCount = 0 <;> simp [h]

theorem count_ofFinding (finding : Finding) :
    (ofFinding finding).count = finding.candidateCount := by
  unfold count ofFinding
  by_cases h : finding.candidateCount = 0 <;> simp [h]

end Section

/-! ## Figures -/

variable (colour : Bool)

/-- The warning about a path that is skipped. -/
def skippedWarning (path : Path) : Text :=
  Text.line (styled colour [.bold, .yellow] "warning:".toList ++
    " File not found, skipped: ".toList ++ path.shown)

/-- The line with these figures. -/
def figuresLine (scanned skipped missing candidates : Nat) : Text :=
  Text.line (styled colour [.bold] "summary:".toList ++ [' '] ++ Text.ofNat scanned ++ [' '] ++
    (if scanned = 1 then "file".toList else "files".toList) ++ " scanned, ".toList ++
    Text.ofNat skipped ++ " skipped, ".toList ++
    Text.ofNat missing ++ " missing i18n wiring, ".toList ++
    Text.ofNat candidates ++ " candidate strings".toList)

theorem candidateSum_eq_sum (survey : Survey) :
    survey.candidateSum = Section.sum (survey.findings.map Section.ofFinding) := by
  rw [Section.sum, List.foldr_map]
  simp only [Section.count_ofFinding]
  rfl

theorem unwiredCount_eq_countP (survey : Survey) :
    survey.unwiredCount = (survey.findings.map Section.ofFinding).countP Section.isMissing := by
  rw [List.countP_map]
  rfl

/-- The figures are counted in the sections that are printed for the findings. -/
theorem figures_eq_figuresLine (survey : Survey) {sections : List Section}
    (h : sections = survey.findings.map Section.ofFinding) :
    figures colour survey =
      figuresLine colour sections.length survey.skipped.length (sections.countP Section.isMissing)
        (Section.sum sections % Survey.totalBound) := by
  rw [h, List.length_map, ← unwiredCount_eq_countP, ← candidateSum_eq_sum]
  rfl

end Wording

namespace Program

open Wording (Section)
open World (Says)

variable {env : Environment} {arguments : List Text} {line : CommandLine} {w after : World}

/-- The figures of an audit that comes to its end are those of the report that was written: as many
files were scanned as there are sections, as many paths were skipped as there are warnings, and
both together are the paths that were to be looked at. The wiring is missing in as many files as
there are sections with the two lines about it, and the candidates are the numbers in the sections
taken together, if their sum fits into a word. -/
theorem launch_figures (hread : CommandLine.read env.config arguments = .ok line)
    (htask : line.task = .audit) (hverbose : line.options.verbose)
    (hrun : (launch World.host env arguments).run w = (0, after)) :
    ∃ s further findings sections skipped total last,
      Audit.settingsOn line.options w = .ok s ∧ Audit.furtherOn line.options w = .ok further ∧
      List.Forall₂ (w.files.Yields (Audit.context s further))
        ((Audit.paths line.options s).filter fun p => (w.files p).isSome) findings ∧
      sections = findings.map Section.ofFinding ∧
      skipped = (Audit.paths line.options s).filter (fun p => (w.files p).isNone) ∧
      after.output = w.output ++
        (Wording.header env.colour s.labels ++
          sections.flatMap (Section.text env.colour s.labels) ++
          Wording.footer env.colour s.labels) ∧
      after.errors = w.errors ++
        (skipped.flatMap (Wording.skippedWarning env.colour) ++
          (Wording.figuresLine env.colour sections.length skipped.length
            (sections.countP Section.isMissing) total ++ last)) ∧
      last.IsLine ∧
      sections.length + skipped.length = (Audit.paths line.options s).length ∧
      total < Survey.totalBound ∧
      (Section.sum sections < Survey.totalBound → total = Section.sum sections) := by
  have hcompletes : Audit.Completes line.options w := by
    have hsucceeds := (code_iff hread hrun).1.1 rfl
    rwa [Succeeds, htask] at hsucceeds
  obtain ⟨s, further, hs, hfurther, hsound⟩ := hcompletes
  have hsays := says_completed hread htask hs hfurther hsound
  rw [Says, hrun, hverbose, if_pos rfl] at hsays
  obtain ⟨extra, hextra, -⟩ := Audit.exists_table_of_furtherOn hfurther
  have hsize : 0 < (Audit.context s further).table.size := by
    rw [hextra]
    exact Audit.size_context_pos s extra
  obtain ⟨hsurvey, hdelivered⟩ := Files.survey_of_sound (Audit.context s further) hsound
  have hreport : w.files.report env.colour s.labels (Audit.context s further)
      (Audit.paths line.options s) =
      Wording.header env.colour s.labels ++
        ((w.files.findings (Audit.context s further) (Audit.paths line.options s)).map
          Section.ofFinding).flatMap (Section.text env.colour s.labels) ++
        Wording.footer env.colour s.labels := by
    rw [Files.report, hsurvey, hdelivered, List.flatMap_map]
    simp only [Section.text_ofFinding]
  rw [Wording.details_of_size_pos env.colour _ hsize,
    Wording.figures_eq_figuresLine env.colour _ rfl, hreport] at hsays
  have hafter := congrArg Prod.snd hsays
  refine ⟨s, further, _, _, _, _, _, hs, hfurther,
    Files.forall₂_yields (Audit.context s further) hsound, rfl, rfl, congrArg World.output hafter,
    congrArg World.errors hafter, Wording.isLine_loaded env.colour _, ?_, ?_, ?_⟩
  · rw [List.length_map]
    exact Files.length_findings_add_skipped (Audit.context s further) hsound
  · exact Nat.mod_lt _ (by decide)
  · exact fun hfits => Nat.mod_eq_of_lt hfits

/-- Arguments that ask for the figures of `Survey.mixedPaths`. -/
def mixedArguments : List Text := "-v".toList :: Survey.mixedPaths.map Path.shown

/-- A file that is looked at twice, a directory, and a path that names nothing. -/
theorem launch_figures_mixedWorld :
    ∃ after last,
      (launch World.host ⟨none, none, none⟩ mixedArguments).run
        Survey.mixedWorld = (0, after) ∧
      after.errors =
        Text.line "warning: File not found, skipped: Many".toList ++
        Text.line "warning: File not found, skipped: None".toList ++
        Text.line ("summary: 2 files scanned, 2 skipped, 2 missing i18n wiring, " ++
          "2 candidate strings").toList ++ last := by
  have hread : CommandLine.read none mixedArguments =
      .ok ⟨.audit, ⟨Survey.mixedPaths, none, none, true⟩⟩ := by
    decide +kernel
  obtain ⟨after, hrun⟩ : ∃ after,
      (launch World.host ⟨none, none, none⟩ mixedArguments).run
        Survey.mixedWorld = (0, after) :=
    ⟨_, @says_completed ⟨none, none, none⟩ _ _ _ hread rfl .standard [] rfl rfl
      Survey.isSound_mixedPaths⟩
  obtain ⟨s, further, findings, sections, skipped, total, last, hs, hfurther, hfindings, rfl, rfl,
    -, herrors, -, -, -, htotal⟩ := @launch_figures ⟨none, none, none⟩ _ _ _ _ hread rfl rfl hrun
  cases hs
  cases hfurther
  have hlisted : (Audit.paths ⟨Survey.mixedPaths, none, none, true⟩ .standard).filter
      (fun p => (Survey.mixedWorld.files p).isSome) = [.of "One", .of "./One"] := by
    decide +kernel
  have hskipped : (Audit.paths ⟨Survey.mixedPaths, none, none, true⟩ .standard).filter
      (fun p => (Survey.mixedWorld.files p).isNone) = [.of "Many", .of "None"] := by
    decide +kernel
  -- both paths lead to the same file, so both yield what there is to find in its text
  have htext : ∀ p ∈ [.of "One", .of "./One"], ∀ t,
      Survey.mixedWorld.files p = some (.ok (encodeText t)) → t = "\"Save\"".toList := by
    have hsource : ∀ p ∈ [.of "One", .of "./One"],
        Survey.mixedWorld.files.source? p = some "\"Save\"".toList := by
      decide +kernel
    intro p hp t ht
    exact Option.some.inj ((Files.source?_eq_some_iff.2 ht).symm.trans (hsource p hp))
  have hone : findings = [.ofText (Audit.context .standard []) (.of "One") "\"Save\"".toList,
      .ofText (Audit.context .standard []) (.of "./One") "\"Save\"".toList] := by
    rw [hlisted] at hfindings
    obtain _ | ⟨⟨t, ht, rfl⟩, _ | ⟨⟨t', ht', rfl⟩, _ | _⟩⟩ := hfindings
    rw [htext _ (by simp) t ht, htext _ (by simp) t' ht']
  have hmissing : (findings.map Section.ofFinding).countP Section.isMissing = 2 := by
    rw [hone]
    decide +kernel
  have hsum : Section.sum (findings.map Section.ofFinding) = 2 := by
    rw [hone]
    decide +kernel
  have hlength : (findings.map Section.ofFinding).length = 2 := by
    rw [hone]
    rfl
  rw [hsum] at htotal
  rw [hskipped, hmissing, hlength, htotal (by decide), ← List.append_assoc] at herrors
  have hwritten : [.of "Many", .of "None"].flatMap (Wording.skippedWarning false) ++
      Wording.figuresLine false 2 2 2 2 =
        Text.line "warning: File not found, skipped: Many".toList ++
        Text.line "warning: File not found, skipped: None".toList ++
        Text.line ("summary: 2 files scanned, 2 skipped, 2 missing i18n wiring, " ++
          "2 candidate strings").toList := by
    decide +kernel
  refine ⟨after, last, hrun, ?_⟩
  rw [← hwritten]
  exact herrors

end Program

end LiteralAudit
