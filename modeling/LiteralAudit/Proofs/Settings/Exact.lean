import LiteralAudit.Proofs.Audit.Keys
import LiteralAudit.Proofs.Settings.Rules
import LiteralAudit.Proofs.Steps

/-!
# Settings that reach an audit

Settings are looked at once, when they are read, and what is found is the first rule that they
break. So whatever a program is given to work with obeys the rules, wherever it comes from, and
settings that obey them are taken as they are. Where several rules are broken, the order of the
rules decides what is reported, and of blank files the first one is named.
-/

namespace LiteralAudit.Settings

/-- Settings that are read from a file or searched for obey the rules, and so do those of every
audit: it has such settings, or it fails at them and does nothing else. If the text of a file holds
settings, they are loaded unchanged if they obey the rules, and otherwise refused; with at most
one key without quotes, this is for the first rule that is broken, which is only one. -/
theorem load_exact (w : World) (path : Path) :
    (∀ s w', (load World.host path).run w = (.ok s, w') → s.Obeys) ∧
    (∀ found w', (discover World.host path).run w = (.ok found, w') → found.settings.Obeys) ∧
    (∀ colour options,
      (∃ s, (Audit.settings World.host options).run w = (.ok s, w) ∧ s.Obeys) ∨
      ∃ trouble, (Audit.settings World.host options).run w = (.error trouble, w) ∧
        (Audit.run World.host colour options).run w = (.error trouble, w)) ∧
    ∀ text s, w.tree.read w.here path = .ok (encodeText text) → ofText text = .ok s →
      (s.Obeys → (load World.host path).run w = (.ok s, w)) ∧
      (¬ s.Obeys → s.LacksQuotesOnce →
        ∃ v, s.IsFirstBroken v ∧ (∀ other, s.IsFirstBroken other → other = v) ∧
          (load World.host path).run w = (.error (.violation v), w)) := by
  refine ⟨?_, ?_, ?_, ?_⟩
  · intro s w' h
    rw [run_load] at h
    exact obeys_iff.2 (violation?_of_loadOn (congrArg Prod.fst h))
  · intro found w' h
    rw [run_discover] at h
    have hfound : discovered w (Path.ancestors path) = .ok found := congrArg Prod.fst h
    unfold discovered at hfound
    split at hfound
    · obtain ⟨s, hs, rfl⟩ := exists_of_map_eq_ok hfound
      exact obeys_iff.2 (violation?_of_loadOn hs)
    · cases hfound
      exact obeys_iff.2 (violation?_standard w.order)
  · intro colour options
    cases hs : Audit.settingsOn options w with
    | ok s =>
      refine .inl ⟨s, ?_, obeys_iff.2 (Audit.violation?_of_settingsOn hs)⟩
      rw [Audit.run_settings, hs]
    | error trouble =>
      refine .inr ⟨trouble, ?_, Audit.run_of_settings_error colour options w hs⟩
      rw [Audit.run_settings, hs]
  · intro text s hfile hread
    have htext := World.text_of_read hfile
    rw [run_load]
    refine ⟨?_, ?_⟩
    · intro hobeys
      rw [loadOn_eq_ok_iff.2 ⟨text, htext, hread, obeys_iff.1 hobeys⟩]
    · intro hbroken hkeys
      cases hv : s.violation? w.order with
      | none => exact absurd (obeys_iff.2 hv) hbroken
      | some v =>
        have hfirst := isFirstBroken_of_violation? hv
        refine ⟨v, hfirst, fun other hother => hfirst.unique hother hkeys, ?_⟩
        rw [loadOn, htext]
        simp only [check, hread, hv]

/-- Settings that break three rules; the second file has an em space for its name. -/
def brokenSettings : Settings :=
  { standard with
    previewLimit := 0
    files := [['a'], ['\u2003']]
    mappings := .ofList [("Save".toList, ['x'])] }

def brokenText : Text :=
  ("\x7b\"previewLimit\": 0, \"files\": [\"a\", \"\\u2003\"], " ++
    "\"mappings\": \x7b\"Save\": \"x\"\x7d\x7d").toList

/-- Settings that break none, for a zero-width space is not white space. -/
def narrowSettings : Settings := { standard with files := [['\u200b']] }

def narrowText : Text := "\x7b\"files\": [\"\\u200b\"]\x7d".toList

/-- The first of the three rules is reported, and the other settings are loaded. -/
theorem load_exact_brokenText :
    (load World.host (.of "c")).run (World.holding brokenText) =
      (.error (.violation .noPreview), World.holding brokenText) ∧
    (load World.host (.of "c")).run (World.holding narrowText) =
      (.ok narrowSettings, World.holding narrowText) := by
  constructor
  · obtain ⟨-, -, -, hload⟩ := load_exact (World.holding brokenText) (.of "c")
    have hread : ofText brokenText = .ok brokenSettings := by decide +kernel
    have hviolation : brokenSettings.violation? .ascending = some .noPreview := by decide +kernel
    have hbroken : ¬ brokenSettings.Obeys := by
      intro hobeys
      rw [obeys_iff.1 hobeys] at hviolation
      cases hviolation
    have hkeys : brokenSettings.LacksQuotesOnce := by
      have hall : ∀ key ∈ brokenSettings.mappings.keys, key = "Save".toList := by decide
      intro a ha b hb _ _
      rw [hall a ha, hall b hb]
    obtain ⟨v, -, hunique, hrun⟩ :=
      (hload _ _ (World.read_holding brokenText) hread).2 hbroken hkeys
    rw [hrun, ← hunique _ (isFirstBroken_of_violation? hviolation)]
  · obtain ⟨-, -, -, hload⟩ := load_exact (World.holding narrowText) (.of "c")
    have hread : ofText narrowText = .ok narrowSettings := by decide +kernel
    have hobeys : narrowSettings.Obeys := (@obeys_iff _ .ascending).2 (by decide +kernel)
    exact (hload _ _ (World.read_holding narrowText) hread).1 hobeys

end LiteralAudit.Settings
