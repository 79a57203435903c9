import LiteralAudit.Program
import LiteralAudit.Proofs.Audit.Report
import LiteralAudit.Proofs.Wording

/-!
# Runs with and without colour

A run of an audit says the same with colour and without, but for the styles: what is said on
either stream is put together from parts that leave the same plain text, and what a run does
besides does not depend on colour.
-/

namespace LiteralAudit

open Text (Leaves)

/-! ## Machines on which the same is said in other styles -/

/-- What was said on one machine leaves what was said on another one; they differ in nothing
else. -/
structure World.Leaves (styled plain : World) : Prop where
  tree : styled.tree = plain.tree
  here : styled.here = plain.here
  order : styled.order = plain.order
  output : Text.Leaves styled.output plain.output
  errors : Text.Leaves styled.errors plain.errors

theorem World.Leaves.quiet (tree : FileTree) (here : Place) (order : KeyOrder) :
    Leaves (.quiet tree here order) (.quiet tree here order) := ⟨rfl, rfl, rfl, .nil, .nil⟩

theorem World.Leaves.say {styled plain : World} (h : Leaves styled plain) (stream : Stream)
    {a b : Text} (hab : a.Leaves b) : Leaves (styled.say stream a) (plain.say stream b) := by
  cases stream with
  | output => exact ⟨h.tree, h.here, h.order, h.output.append hab, h.errors⟩
  | errors => exact ⟨h.tree, h.here, h.order, h.output, h.errors.append hab⟩

/-! ## The texts of an audit -/

namespace Files

variable {files : Files} {context : Context} {paths : List Path}

/-- Only a file of the list ends a survey. -/
theorem exists_of_survey_error {trouble : Trouble}
    (h : files.survey context paths = .error trouble) :
    ∃ p ∈ paths, ∃ fault, files.fault? p = some fault ∧
      trouble = .unreadable .source p fault := by
  unfold survey at h
  split at h
  · next trouble hfind =>
    cases h
    obtain ⟨p, hp, htrouble⟩ := List.exists_of_findSome?_eq_some hfind
    obtain ⟨fault, hfault, rfl⟩ := Option.map_eq_some_iff.1 htrouble
    exact ⟨p, hp, fault, hfault, rfl⟩
  · cases h

/-- Only paths of the list are skipped. -/
theorem mem_of_mem_skipped {survey : Survey} (h : files.survey context paths = .ok survey)
    {p : Path} (hp : p ∈ survey.skipped) : p ∈ paths := by
  unfold Files.survey at h
  split at h
  · cases h
  · cases h
    exact (List.mem_filter.1 hp).1

theorem leaves_report (colour : Bool) {labels : Labels} (hlabels : ArePlain labels.texts)
    (hfindings : ∀ finding ∈ files.delivered context paths, ArePlain finding.texts) :
    Leaves (files.report colour labels context paths)
      (files.report false labels context paths) := by
  have hsections : Leaves
      ((files.delivered context paths).flatMap (Wording.fileSection colour labels))
      ((files.delivered context paths).flatMap (Wording.fileSection false labels)) :=
    .flatMap fun finding h => Wording.leaves_fileSection colour hlabels (hfindings finding h)
  refine ((Wording.leaves_header colour hlabels).append hsections).append ?_
  cases files.survey context paths with
  | ok survey => exact Wording.leaves_footer colour hlabels
  | error trouble => exact .nil

end Files

namespace Audit

/-- The texts that an audit handles on a machine: why it has no settings or replacements, or
else the words of its report, its paths, what it finds in their files, and what the machine says
of files in which there is nothing to find. -/
def texts (options : Options) (w : World) : List Text :=
  match settingsOn options w with
  | .error trouble => [trouble.describe]
  | .ok s =>
    match furtherOn options w with
    | .error trouble => [trouble.describe]
    | .ok further =>
      s.labels.texts ++ (paths options s).map Path.shown ++
        (w.files.delivered (context s further) (paths options s)).flatMap Finding.texts ++
        ((paths options s).filterMap w.files.fault?).map AccessFault.describe

theorem isPlain_describe_unreadable {p : Path} {fault : AccessFault} (hpath : p.shown.IsPlain)
    (hfault : fault.describe.IsPlain) :
    (Trouble.unreadable .source p fault).describe.IsPlain := by
  have hheadline : Text.IsPlain
      ("Failed to read ".toList ++ "file".toList ++ ": ".toList ++ p.shown) :=
    Text.isPlain_append.2 ⟨by decide, hpath⟩
  exact Text.isPlain_append.2 ⟨Text.isPlain_append.2 ⟨hheadline, by decide⟩, hfault⟩

/-- What is still to be said about an audit is plain: why it failed, or what it skipped. -/
def EndsPlain : Except Trouble Result → Prop
  | .error trouble => trouble.describe.IsPlain
  | .ok result => ArePlain (result.survey.skipped.map Path.shown)

/-- With colour and without, an audit comes to the same and says the same. -/
theorem run_leaves (colour : Bool) {options : Options} {w : World} (hw : w.Leaves w)
    (h : ArePlain (texts options w)) :
    ∃ result styled plain,
      (run World.host colour options).run w = (result, styled) ∧
      (run World.host false options).run w = (result, plain) ∧
      styled.Leaves plain ∧ EndsPlain result := by
  unfold texts at h
  cases hs : settingsOn options w with
  | error trouble =>
    rw [hs] at h
    exact ⟨_, w, w, run_of_settings_error colour options w hs,
      run_of_settings_error false options w hs, hw, h _ (List.mem_singleton_self _)⟩
  | ok s =>
    simp only [hs] at h
    cases hfurther : furtherOn options w with
    | error trouble =>
      rw [hfurther] at h
      exact ⟨_, w, w, run_of_further_error colour options w hs hfurther,
        run_of_further_error false options w hs hfurther, hw, h _ (List.mem_singleton_self _)⟩
    | ok further =>
      simp only [hfurther] at h
      have hlabels : ArePlain s.labels.texts := fun t ht => h t (by simp [ht])
      have hpaths : ∀ p ∈ paths options s, p.shown.IsPlain := by
        intro p hp
        have hshown : p.shown ∈ (paths options s).map Path.shown := List.mem_map_of_mem hp
        exact h _ (by simp [hshown])
      have hfindings : ∀ finding ∈ w.files.delivered (context s further) (paths options s),
          ArePlain finding.texts := fun finding hfinding t ht =>
        h t (List.mem_append_left _
          (List.mem_append_right _ (List.mem_flatMap.2 ⟨finding, hfinding, ht⟩)))
      refine ⟨_, _, _, run_of_ok colour options w hs hfurther,
        run_of_ok false options w hs hfurther,
        hw.say .output (Files.leaves_report colour hlabels hfindings), ?_⟩
      cases hsurvey : w.files.survey (context s further) (paths options s) with
      | error trouble =>
        obtain ⟨p, hp, fault, hfault, rfl⟩ := Files.exists_of_survey_error hsurvey
        refine isPlain_describe_unreadable (hpaths p hp) (h _ (List.mem_append_right _ ?_))
        exact List.mem_map_of_mem (List.mem_filterMap.2 ⟨p, hp, hfault⟩)
      | ok survey =>
        intro t ht
        obtain ⟨p, hp, rfl⟩ := List.mem_map.1 ht
        exact hpaths p (Files.mem_of_mem_skipped hsurvey hp)

end Audit

namespace Program

/-- What a run says behind its report, and its exit code. -/
def ending (colour verbose : Bool) : Except Trouble Audit.Result × World → Nat × World
  | (.error trouble, w) => (failureCode, w.say .errors (failureMessage trouble))
  | (.ok result, w) =>
    (exitCode .success,
      if verbose then w.say .errors (Wording.details colour result.survey result.table) else w)

theorem launch_audit {env : Environment} {arguments : List Text} {line : CommandLine}
    (hread : CommandLine.read env.config arguments = .ok line) (htask : line.task = .audit)
    (w : World) :
    (launch World.host env arguments).run w =
      ending env.colour line.options.verbose
        ((Audit.run World.host env.colour line.options).run w) := by
  obtain ⟨⟨result, w'⟩, haudit⟩ :
      ∃ after, (Audit.run World.host env.colour line.options).run w = after := ⟨_, rfl⟩
  rw [haudit, launch, hread]
  cases result with
  | error trouble =>
    have hrun : (run World.host env.colour line).run w = (.error trouble, w') := by
      rw [run, htask]
      exact World.run_bind haudit _
    exact World.run_bind hrun _
  | ok result =>
    have hrun : (run World.host env.colour line).run w =
        (.ok .success, (ending env.colour line.options.verbose (.ok result, w')).2) := by
      rw [run, htask]
      refine (World.run_bind haudit _).trans ?_
      cases hverbose : line.options.verbose with
      | true => rfl
      | false => rfl
    exact World.run_bind hrun _

theorem isPlain_failureMessage {trouble : Trouble} (h : trouble.describe.IsPlain) :
    (failureMessage trouble).IsPlain :=
  Text.isPlain_line.2 (Text.isPlain_append.2 ⟨by decide, h⟩)

theorem ending_leaves (colour verbose : Bool) {result : Except Trouble Audit.Result}
    {styled plain : World} (h : styled.Leaves plain) (hends : Audit.EndsPlain result) :
    (ending colour verbose (result, styled)).1 = (ending false verbose (result, plain)).1 ∧
    (ending colour verbose (result, styled)).2.Leaves
      (ending false verbose (result, plain)).2 := by
  cases result with
  | error trouble => exact ⟨rfl, h.say .errors (.of_isPlain (isPlain_failureMessage hends))⟩
  | ok result =>
    cases verbose with
    | false => exact ⟨rfl, h⟩
    | true => exact ⟨rfl, h.say .errors (Wording.leaves_details colour hends result.table)⟩

/-- Colour changes nothing but styles. Each part of a report without its styles is the part
as it is written when colour is off, and so is all that a run of an audit says on either
stream; exit codes and files are the same. -/
theorem unstyled_of_coloured :
    (∀ (colour : Bool) (labels : Labels), ArePlain labels.texts →
      (Wording.header colour labels).unstyled = Wording.header false labels ∧
      (Wording.footer colour labels).unstyled = Wording.footer false labels ∧
      ∀ finding : Finding, ArePlain finding.texts →
        (Wording.fileSection colour labels finding).unstyled =
          Wording.fileSection false labels finding) ∧
    (∀ (colour : Bool) (skipped : List Path), ArePlain (skipped.map Path.shown) →
      (Wording.skippedWarnings colour skipped).unstyled = Wording.skippedWarnings false skipped) ∧
    (∀ (colour : Bool) (survey : Survey) (table : Replacements),
      (Wording.summary colour survey table).unstyled = Wording.summary false survey table) ∧
    ∀ (env env' : Environment) (arguments : List Text) (line : CommandLine) (tree : FileTree)
      (here : Place) (order : KeyOrder),
      env'.config = env.config → env'.colour = false →
      CommandLine.read env.config arguments = .ok line → line.task = .audit →
      ArePlain (Audit.texts line.options (.quiet tree here order)) →
      ∃ code styled plain,
        (launch World.host env arguments).run (.quiet tree here order) = (code, styled) ∧
        (launch World.host env' arguments).run (.quiet tree here order) = (code, plain) ∧
        styled.output.unstyled = plain.output ∧ styled.errors.unstyled = plain.errors ∧
        styled.tree = plain.tree := by
  refine ⟨?_, ?_, ?_, ?_⟩
  · intro colour labels hlabels
    exact ⟨(Wording.leaves_header colour hlabels).eq, (Wording.leaves_footer colour hlabels).eq,
      fun _ hfinding => (Wording.leaves_fileSection colour hlabels hfinding).eq⟩
  · intro colour skipped hskipped
    exact (Wording.leaves_skippedWarnings colour hskipped).eq
  · intro colour survey table
    exact (Wording.leaves_summary colour survey table).eq
  · intro env env' arguments line tree here order hconfig hcolour hread htask hplain
    have hread' : CommandLine.read env'.config arguments = .ok line := by rwa [hconfig]
    obtain ⟨result, styled, plain, hstyled, hunstyled, hsaid, hends⟩ :=
      Audit.run_leaves env.colour (World.Leaves.quiet tree here order) hplain
    obtain ⟨hcode, hleaves⟩ := ending_leaves env.colour line.options.verbose hsaid hends
    rw [launch_audit hread htask, launch_audit hread' htask, hcolour, hstyled, hunstyled]
    exact ⟨(ending false line.options.verbose (result, plain)).1,
      (ending env.colour line.options.verbose (result, styled)).2,
      (ending false line.options.verbose (result, plain)).2, Prod.ext hcode rfl, rfl,
      hleaves.output.eq, hleaves.errors.eq, hleaves.tree⟩

theorem unstyled_of_coloured_mixedWorld :
    ∃ code styled plain,
      (launch World.host ⟨none, some ['1'], none⟩
        ["-v".toList, "One".toList, "None".toList]).run Survey.mixedWorld = (code, styled) ∧
      (launch World.host ⟨none, none, none⟩
        ["-v".toList, "One".toList, "None".toList]).run Survey.mixedWorld = (code, plain) ∧
      styled.output.unstyled = plain.output ∧ styled.errors.unstyled = plain.errors ∧
      styled.tree = plain.tree := by
  have hplain : ArePlain (Audit.texts ⟨[.of "One", .of "None"], none, none, true⟩
      Survey.mixedWorld) := by
    show ∀ t ∈ _, Text.IsPlain t
    decide +kernel
  have hread : CommandLine.read none ["-v".toList, "One".toList, "None".toList] =
      .ok ⟨.audit, ⟨[.of "One", .of "None"], none, none, true⟩⟩ := by
    decide +kernel
  obtain ⟨-, -, -, hruns⟩ := unstyled_of_coloured
  exact hruns ⟨none, some ['1'], none⟩ ⟨none, none, none⟩ _ _ _ _ .ascending rfl rfl hread rfl
    hplain

end Program

end LiteralAudit
