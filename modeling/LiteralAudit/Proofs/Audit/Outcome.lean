import LiteralAudit.Proofs.Audit.Sources

/-!
# How an audit ends

An audit fails at the first thing that is not as it should be: at the directory where it runs, at
its settings file, at the file with further replacements, or at a file of its list that is garbled
or cannot be read. If everything is as it should be, it comes to its end, whatever it finds. Both
are said of the machine on which it runs, and one of them is the case.
-/

namespace LiteralAudit

/-! ## Messages -/

namespace Trouble

end Trouble

namespace Audit

variable {options : Options} {w : World} {trouble : Trouble}

/-! ## Failures -/

/-- What an audit fails at. Each failure is about the first thing that is not as it should be, so
everything that is looked at before is there. -/
inductive Fails (options : Options) (w : World) : Trouble → Prop
  /-- A settings file is to be searched for, and there is no telling from where. -/
  | lostDirectory {fault : AccessFault} (hlost : settingsFile? options w = .error fault) :
      Fails options w (.noDirectory fault)
  /-- The settings file cannot be read. -/
  | unreadableSettings {p : Path} {fault : AccessFault}
      (hfile : settingsFile? options w = .ok (some p)) (hfault : w.text p = .error fault) :
      Fails options w (.unreadable .settings p fault)
  /-- It does not hold settings. -/
  | malformedSettings {p : Path} {t : Text} {fault : Json.Fault}
      (hfile : settingsFile? options w = .ok (some p)) (htext : w.text p = .ok t)
      (hfault : Settings.ofText t = .error fault) :
      Fails options w (.malformed .settings p t fault)
  /-- Its settings break a rule. -/
  | brokenRule {p : Path} {t : Text} {s : Settings} {violation : Settings.Violation}
      (hfile : settingsFile? options w = .ok (some p)) (htext : w.text p = .ok t)
      (hread : Settings.ofText t = .ok s) (hbroken : s.violation? w.order = some violation) :
      Fails options w (.violation violation)
  /-- The file with further replacements cannot be read. -/
  | unreadableMappings {s : Settings} {p : Path} {fault : AccessFault}
      (hs : settingsOn options w = .ok s) (hfile : options.mappings = some p)
      (hfault : w.text p = .error fault) : Fails options w (.unreadable .mappings p fault)
  /-- It does not hold a table. -/
  | malformedMappings {s : Settings} {p : Path} {t : Text} {fault : Json.Fault}
      (hs : settingsOn options w = .ok s) (hfile : options.mappings = some p)
      (htext : w.text p = .ok t) (hfault : Replacements.ofText t = .error fault) :
      Fails options w (.malformed .mappings p t fault)
  /-- A file of the list is garbled or cannot be read. -/
  | unreadableSource {s : Settings} {further : List (Text × Text)} {before after : List Path}
      {bad : Path} {fault : AccessFault} (hs : settingsOn options w = .ok s)
      (hfurther : furtherOn options w = .ok further)
      (hlisted : paths options s = before ++ bad :: after)
      (hbefore : ∀ p ∈ before, w.files.IsSound p) (hbad : w.files.Faulty bad fault) :
      Fails options w (.unreadable .source bad fault)

/-- An audit comes to its end if there are settings and replacements, and every file of the list
has a text to read. What is found in the files does not matter. -/
def Completes (options : Options) (w : World) : Prop :=
  ∃ s further, settingsOn options w = .ok s ∧ furtherOn options w = .ok further ∧
    ∀ p ∈ paths options s, w.files.IsSound p

/-- What an audit finds and what it skips. -/
def surveyOn (options : Options) (w : World) (s : Settings) (further : List (Text × Text)) :
    Survey :=
  ⟨w.files.findings (context s further) (paths options s),
    (paths options s).filter fun p => (w.files p).isNone⟩

theorem fails_of_settingsOn (h : settingsOn options w = .error trouble) :
    Fails options w trouble := by
  rw [settingsOn_eq_settingsFile?] at h
  split at h
  · next fault hlost =>
    cases h
    exact .lostDirectory hlost
  · next p hfile =>
    unfold Settings.loadOn Settings.check at h
    split at h
    · next fault hfault =>
      cases h
      exact .unreadableSettings hfile hfault
    · next t htext =>
      split at h
      · next fault hfault =>
        cases h
        exact .malformedSettings hfile htext hfault
      · next s hread =>
        split at h
        · next violation hbroken =>
          cases h
          exact .brokenRule hfile htext hread hbroken
        · cases h
  · cases h

theorem fails_of_furtherOn {s : Settings} (hs : settingsOn options w = .ok s)
    (h : furtherOn options w = .error trouble) : Fails options w trouble := by
  rw [furtherOn_eq] at h
  split at h
  · cases h
  · next p hfile =>
    split at h
    · next fault hfault =>
      cases h
      exact .unreadableMappings hs hfile hfault
    · next t htext =>
      split at h
      · next fault hfault =>
        cases h
        exact .malformedMappings hs hfile htext hfault
      · cases h

theorem fails_or_completes (options : Options) (w : World) :
    (∃ trouble, Fails options w trouble) ∨ Completes options w := by
  cases hs : settingsOn options w with
  | error trouble => exact .inl ⟨trouble, fails_of_settingsOn hs⟩
  | ok s =>
    cases hfurther : furtherOn options w with
    | error trouble => exact .inl ⟨trouble, fails_of_furtherOn hs hfurther⟩
    | ok further =>
      by_cases hsound : ∀ p ∈ paths options s, w.files.IsSound p
      · exact .inr ⟨s, further, hs, hfurther, hsound⟩
      · obtain ⟨before, bad, after, fault, hlisted, hbefore, hbad⟩ :=
          Files.exists_first_faulty hsound
        exact .inl ⟨_, .unreadableSource hs hfurther hlisted hbefore hbad⟩

/-! ## Runs -/

open World (Says)

/-- The run of an audit that fails. The report may have begun. -/
theorem Fails.exists_ending (h : Fails options w trouble) (colour : Bool) :
    ∃ output, Says (run World.host colour options) w (.error trouble) output [] := by
  -- what is wrong with the settings file is what reading it answers with
  have hsettings : ∀ {p}, settingsFile? options w = .ok (some p) →
      Settings.loadOn w p = .error trouble →
      ∃ output, Says (run World.host colour options) w (.error trouble) output [] := by
    intro p hfile hload
    refine ⟨[], says_of_settings_error colour ?_⟩
    rw [settingsOn_eq_settingsFile?, hfile]
    exact hload
  have hmappings : ∀ {s}, settingsOn options w = .ok s → furtherOn options w = .error trouble →
      ∃ output, Says (run World.host colour options) w (.error trouble) output [] :=
    fun hs hfurther => ⟨[], says_of_further_error colour hs hfurther⟩
  cases h with
  | lostDirectory hlost =>
    refine ⟨[], says_of_settings_error colour ?_⟩
    rw [settingsOn_eq_settingsFile?, hlost]
  | unreadableSettings hfile hfault =>
    apply hsettings hfile
    simp only [Settings.loadOn, hfault]
  | malformedSettings hfile htext hfault =>
    apply hsettings hfile
    simp only [Settings.loadOn, htext, Settings.check, hfault]
  | brokenRule hfile htext hread hbroken =>
    apply hsettings hfile
    simp only [Settings.loadOn, htext, Settings.check, hread, hbroken]
  | unreadableMappings hs hfile hfault =>
    apply hmappings hs
    simp only [furtherOn_eq, hfile, hfault]
  | malformedMappings hs hfile htext hfault =>
    apply hmappings hs
    simp only [furtherOn_eq, hfile, htext, hfault]
  | unreadableSource hs hfurther hlisted hbefore hbad =>
    exact ⟨_, World.says_of_output
      (run_of_faulty colour options w hs hfurther hlisted hbefore hbad)⟩

/-- The run of an audit that comes to its end. -/
theorem says_of_sound (colour : Bool) {s : Settings} {further : List (Text × Text)}
    (hs : settingsOn options w = .ok s) (hfurther : furtherOn options w = .ok further)
    (hsound : ∀ p ∈ paths options s, w.files.IsSound p) :
    Says (run World.host colour options) w
      (.ok ⟨surveyOn options w s further, (context s further).table⟩)
      (w.files.report colour s.labels (context s further) (paths options s)) [] := by
  apply World.says_of_output
  rw [run_of_ok colour options w hs hfurther, (Files.survey_of_sound _ hsound).1]
  rfl

theorem Fails.not_completes (h : Fails options w trouble) : ¬ Completes options w := by
  rintro ⟨s, further, hs, hfurther, hsound⟩
  obtain ⟨output, herror⟩ := h.exists_ending false
  have hanswer := congrArg Prod.fst (herror.symm.trans (says_of_sound false hs hfurther hsound))
  cases hanswer

/-! ## Other orders of the keys -/

variable (order : KeyOrder)

end Audit

end LiteralAudit
