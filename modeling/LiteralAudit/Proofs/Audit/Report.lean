import LiteralAudit.Proofs.Audit.Survey

/-!
# What a run of an audit writes

Settings and further replacements are looked up before anything is written. Behind the
heading stand the sections of the files in front of the first that is garbled or cannot be
read, and the ending if there is none. So the report is that of a survey which hands its
findings to nobody, as far as the survey comes.
-/

namespace LiteralAudit

open World (Looks)

/-! ## Looking up the settings -/

theorem Settings.load_looks (p : Path) : Looks (load World.host p) := by
  refine (World.looks_readText p).bind fun result => ?_
  cases result with
  | error fault => exact .pure _
  | ok text => exact World.looks_keyOrder.bind fun _ => .pure _

theorem Settings.firstFile?_looks (directories : List Path) :
    Looks (firstFile? World.host directories) := by
  induction directories with
  | nil => exact .pure _
  | cons directory outer ih =>
    rw [firstFile?]
    refine (World.looks_isPresent _).bind fun hasFile => ?_
    cases hasFile with
    | true => exact .pure _
    | false =>
      refine (World.looks_isPresent _).bind fun hasBoundary => ?_
      cases hasBoundary with
      | true => exact .pure _
      | false => exact ih

theorem Settings.discover_looks (directory : Path) : Looks (discover World.host directory) := by
  refine (firstFile?_looks _).bind fun found => ?_
  cases found with
  | none => exact .pure _
  | some p => exact (load_looks p).bind fun _ => .pure _

theorem Replacements.load_looks (p : Path) : Looks (load World.host p) := by
  refine (World.looks_readText p).bind fun result => ?_
  cases result with
  | error fault => exact .pure _
  | ok text =>
    simp only
    cases ofText text <;> exact .pure _

namespace Audit

theorem settings_looks (options : Options) : Looks (settings World.host options) := by
  unfold settings
  cases options.config with
  | some p => exact Settings.load_looks p
  | none =>
    refine World.looks_directory.bind fun result => ?_
    cases result with
    | error fault => exact .pure _
    | ok directory => exact (Settings.discover_looks directory).bind fun _ => .pure _

theorem furtherEntries_looks (options : Options) :
    Looks (furtherEntries World.host options) := by
  unfold furtherEntries
  cases options.mappings with
  | none => exact .pure _
  | some p => exact (Replacements.load_looks p).bind fun _ => .pure _

/-- The settings that a run on a machine uses. -/
def settingsOn (options : Options) (w : World) : Except Trouble Settings :=
  ((settings World.host options).run w).1

/-- The further replacements that a run on a machine uses. -/
def furtherOn (options : Options) (w : World) : Except Trouble (List (Text × Text)) :=
  ((furtherEntries World.host options).run w).1

theorem run_settings (options : Options) (w : World) :
    (settings World.host options).run w = (settingsOn options w, w) :=
  (settings_looks options).run_eq w

theorem run_furtherEntries (options : Options) (w : World) :
    (furtherEntries World.host options).run w = (furtherOn options w, w) :=
  (furtherEntries_looks options).run_eq w

end Audit

/-! ## Writing the report -/

theorem World.say_nil (w : World) : w.say .output [] = w := by simp [say]

theorem World.say_say (w : World) (a b : Text) :
    (w.say .output a).say .output b = w.say .output (a ++ b) := by simp [say]

/-- What is said piece by piece is said in one. -/
theorem World.foldl_say {α : Type} (f : α → Text) (l : List α) (w : World) :
    l.foldl (fun w a => w.say .output (f a)) w = w.say .output (l.flatMap f) := by
  induction l generalizing w with
  | nil => rw [List.flatMap_nil, say_nil, List.foldl_nil]
  | cons a l ih => rw [List.foldl_cons, ih, say_say, List.flatMap_cons]

/-- What a run writes about a list of paths. -/
def Files.report (files : Files) (colour : Bool) (labels : Labels) (context : Context)
    (listed : List Path) : Text :=
  Wording.header colour labels ++
    (files.delivered context listed).flatMap (Wording.fileSection colour labels) ++
    match files.survey context listed with
    | .ok _ => Wording.footer colour labels
    | .error _ => []

namespace Audit

variable (colour : Bool) (options : Options) (w : World)

theorem run_of_settings_error {trouble : Trouble} (h : settingsOn options w = .error trouble) :
    (run World.host colour options).run w = (.error trouble, w) := by
  rw [run, World.run_bind (run_settings options w), h]
  rfl

theorem run_of_further_error {s : Settings} {trouble : Trouble}
    (hs : settingsOn options w = .ok s) (h : furtherOn options w = .error trouble) :
    (run World.host colour options).run w = (.error trouble, w) := by
  rw [run, World.run_bind (run_settings options w), hs]
  simp only
  rw [World.run_bind (run_furtherEntries options w), h]
  rfl

/-- A run with settings and replacements writes its report and answers with its survey. -/
theorem run_of_ok {s : Settings} {further : List (Text × Text)}
    (hs : settingsOn options w = .ok s) (h : furtherOn options w = .ok further) :
    (run World.host colour options).run w =
      ((w.files.survey (context s further) (paths options s)).map fun survey =>
          ⟨survey, (context s further).table⟩,
        w.say .output (w.files.report colour s.labels (context s further) (paths options s))) := by
  have hsay : ∀ (w : World) (t : Text),
      (World.host.say .output t).run w = ((), w.say .output t) := fun _ _ => rfl
  have hsurvey := Survey.run_ofFiles_host (context s further)
    (fun finding => World.host.say .output (Wording.fileSection colour s.labels finding))
    (fun _ _ => rfl) (paths options s) (w.say .output (Wording.header colour s.labels))
  have hfiles : (w.say .output (Wording.header colour s.labels)).files = w.files := rfl
  simp only [hsay, hfiles, World.foldl_say, World.say_say] at hsurvey
  rw [run, World.run_bind (run_settings options w), hs]
  simp only
  rw [World.run_bind (run_furtherEntries options w), h]
  simp only
  rw [World.run_bind (hsay w _), World.run_bind hsurvey, Files.report]
  -- only a survey that comes to its end is followed by the ending
  cases w.files.survey (context s further) (paths options s) with
  | error trouble => rw [List.append_nil]; rfl
  | ok survey =>
    simp only
    rw [World.run_bind (hsay _ _), World.say_say]
    rfl

/-- The first file with something wrong ends a run behind the sections of the files in front of
it. -/
theorem run_of_faulty {s : Settings} {further : List (Text × Text)} {before after : List Path}
    {bad : Path} {fault : AccessFault} (hs : settingsOn options w = .ok s)
    (h : furtherOn options w = .ok further) (hlisted : paths options s = before ++ bad :: after)
    (hbefore : ∀ p ∈ before, w.files.IsSound p) (hbad : w.files.Faulty bad fault) :
    (run World.host colour options).run w =
      (.error (.unreadable .source bad fault),
        w.say .output (Wording.header colour s.labels ++
          (w.files.findings (context s further) before).flatMap
            (Wording.fileSection colour s.labels))) := by
  obtain ⟨hsurvey, hdelivered⟩ := Files.survey_of_faulty (context s further) hbefore hbad after
  rw [run_of_ok colour options w hs h, hlisted, Files.report, hsurvey, hdelivered,
    List.append_nil]
  rfl

/-- A run without settings or without replacements writes nothing. Every other run writes
the heading, the sections of the files in front of the first that is garbled or cannot be read,
and the ending if there is none; so it agrees with a survey which hands its findings to nobody.
What stands behind that first file does not matter. -/
theorem run_report :
    (∀ trouble, settingsOn options w = .error trouble →
      (run World.host colour options).run w = (.error trouble, w)) ∧
    (∀ s trouble, settingsOn options w = .ok s → furtherOn options w = .error trouble →
      (run World.host colour options).run w = (.error trouble, w)) ∧
    (∀ s further, settingsOn options w = .ok s → furtherOn options w = .ok further →
      ((∀ p ∈ paths options s, w.files.IsSound p) →
        ∃ survey : Survey,
          (Survey.ofFiles World.host (context s further) (fun _ => pure ())
            (paths options s)).run w = (.ok survey, w) ∧
          List.Forall₂ (w.files.Yields (context s further))
            ((paths options s).filter fun p => (w.files p).isSome) survey.findings ∧
          (run World.host colour options).run w =
            (.ok ⟨survey, (context s further).table⟩,
              w.say .output (Wording.header colour s.labels ++
                survey.findings.flatMap (Wording.fileSection colour s.labels) ++
                Wording.footer colour s.labels))) ∧
      ((¬ ∀ p ∈ paths options s, w.files.IsSound p) →
        ∃ before bad after fault findings,
          paths options s = before ++ bad :: after ∧
          (∀ p ∈ before, w.files.IsSound p) ∧ w.files.Faulty bad fault ∧
          List.Forall₂ (w.files.Yields (context s further))
            (before.filter fun p => (w.files p).isSome) findings ∧
          (run World.host colour options).run w =
            (.error (.unreadable .source bad fault),
              w.say .output (Wording.header colour s.labels ++
                findings.flatMap (Wording.fileSection colour s.labels))) ∧
          ∀ options' w' s' further' after',
            settingsOn options' w' = .ok s' → furtherOn options' w' = .ok further' →
            s'.labels = s.labels → context s' further' = context s further →
            paths options' s' = before ++ bad :: after' →
            (∀ p ∈ before ++ [bad], w'.files p = w.files p) →
            (run World.host colour options').run w' =
              (.error (.unreadable .source bad fault),
                w'.say .output (Wording.header colour s.labels ++
                  findings.flatMap (Wording.fileSection colour s.labels))))) := by
  refine ⟨?_, ?_, ?_⟩
  · intro trouble h
    exact run_of_settings_error colour options w h
  · intro s trouble hs h
    exact run_of_further_error colour options w hs h
  · intro s further hs h
    refine ⟨?_, ?_⟩
    · intro hsound
      obtain ⟨hsurvey, hdelivered⟩ := Files.survey_of_sound (context s further) hsound
      refine ⟨⟨w.files.findings (context s further) (paths options s),
        (paths options s).filter fun p => (w.files p).isNone⟩, ?_,
        Files.forall₂_yields (context s further) hsound, ?_⟩
      · rw [Survey.run_ofFiles_quiet, hsurvey]
      · rw [run_of_ok colour options w hs h, Files.report, hsurvey, hdelivered]
        rfl
    · intro hnot
      obtain ⟨before, bad, after, fault, hlisted, hbefore, hbad⟩ :=
        Files.exists_first_faulty hnot
      refine ⟨before, bad, after, fault, w.files.findings (context s further) before, hlisted,
        hbefore, hbad, Files.forall₂_yields (context s further) hbefore, ?_, ?_⟩
      · exact run_of_faulty colour options w hs h hlisted hbefore hbad
      · intro options' w' s' further' after' hs' h' hlabels hcontext hlisted' hagree
        have hbefore' : ∀ p ∈ before, w'.files.IsSound p := by
          intro p hp
          rw [Files.isSound_congr (hagree p (List.mem_append_left _ hp))]
          exact hbefore p hp
        have hbad' : w'.files.Faulty bad fault := by
          rw [Files.faulty_congr (hagree bad (by simp))]
          exact hbad
        have hfindings : w'.files.findings (context s further) before =
            w.files.findings (context s further) before :=
          Files.findings_congr (context s further) fun p hp =>
            hagree p (List.mem_append_left _ hp)
        rw [run_of_faulty colour options' w' hs' h' hlisted' hbefore' hbad', hlabels, hcontext,
          hfindings]

/-- The mixed machine, with the program in a directory that was removed. -/
def lostWorld : World := { Survey.mixedWorld with here := [.of "Lost"] }

theorem run_report_mixedWorld :
    (run World.host true ⟨[], some (.of "None"), some (.of "Two"), false⟩).run
        Survey.mixedWorld =
      (.error (.unreadable .settings (.of "None") .missing), Survey.mixedWorld) ∧
    (run World.host true ⟨[], none, some (.of "Two"), false⟩).run Survey.mixedWorld =
      (.error (.unreadable .mappings (.of "Two") .notUtf8), Survey.mixedWorld) ∧
    (run World.host true ⟨[.of "/One"], none, none, false⟩).run lostWorld =
      (.error (.noDirectory .missing), lostWorld) ∧
    (∃ survey table, survey.findings.length = 2 ∧
      (run World.host true ⟨Survey.mixedPaths, none, none, false⟩).run Survey.mixedWorld =
        (.ok ⟨survey, table⟩, Survey.mixedWorld.say .output
          (Wording.header true Settings.standard.labels ++
            survey.findings.flatMap (Wording.fileSection true Settings.standard.labels) ++
            Wording.footer true Settings.standard.labels))) ∧
    ∀ after ∈ [[], [.of "One", .of "Two"]],
      (run World.host true ⟨.of "Three" :: after, none, none, false⟩).run Survey.mixedWorld =
        (.error (.unreadable .source (.of "Three") .denied),
          Survey.mixedWorld.say .output (Wording.header true Settings.standard.labels)) := by
  refine ⟨?_, ?_, ?_, ?_, ?_⟩
  · exact (run_report true _ _).1 _ rfl
  · exact (run_report true _ _).2.1 .standard _ rfl rfl
  · exact (run_report true _ _).1 _ rfl
  · obtain ⟨-, -, hreport⟩ :=
      run_report true ⟨Survey.mixedPaths, none, none, false⟩ Survey.mixedWorld
    obtain ⟨hsound, -⟩ := hreport .standard [] rfl rfl
    obtain ⟨survey, -, hfindings, hrun⟩ := hsound Survey.isSound_mixedPaths
    refine ⟨survey, _, ?_, hrun⟩
    rw [← hfindings.length_eq]
    decide +kernel
  · obtain ⟨-, -, hreport⟩ :=
      run_report true ⟨[.of "Three"], none, none, false⟩ Survey.mixedWorld
    obtain ⟨-, hfaulty⟩ := hreport .standard [] rfl rfl
    have hnot : ¬ Survey.mixedWorld.files.IsSound (.of "Three") := by
      rw [← Files.fault?_eq_none_iff, Files.fault?_eq_some_iff.2 Survey.faulty_three]
      exact Option.some_ne_none _
    obtain ⟨before, bad, after, fault, findings, hsplit, hbefore, hbad, hfindings, -, hany⟩ :=
      hfaulty fun h => hnot (h _ (List.mem_singleton_self _))
    cases before with
    | nil =>
      obtain ⟨rfl, -⟩ := List.cons.inj hsplit
      cases hfindings
      have hfault := Files.fault?_eq_some_iff.2 hbad
      cases hfault.symm.trans (Files.fault?_eq_some_iff.2 Survey.faulty_three)
      intro after' _
      rw [hany ⟨.of "Three" :: after', none, none, false⟩ Survey.mixedWorld .standard [] after'
        rfl rfl rfl rfl rfl (fun _ _ => rfl)]
      rfl
    | cons p before =>
      obtain ⟨rfl, -⟩ := List.cons.inj hsplit
      exact absurd (hbefore _ (List.mem_cons_self ..)) hnot

end Audit

end LiteralAudit
