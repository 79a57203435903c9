import LiteralAudit.Proofs.Audit.Sources
import LiteralAudit.Proofs.Settings.Keys

/-!
# The keys of a run

The table of a run has keys from three sources. The standard keys have their quotes, and those
of the settings are looked at by a rule. Nobody looks at the keys of a file with further
replacements: they come into the table as they are, with quotes or without.
-/

namespace LiteralAudit

/-- Only settings that obey the rules are loaded. -/
theorem Settings.violation?_of_loadOn {w : World} {p : Path} {s : Settings}
    (h : loadOn w p = .ok s) : s.violation? w.order = none := by
  obtain ⟨-, -, -, hrules⟩ := loadOn_eq_ok_iff.1 h
  exact hrules

namespace Audit

open Settings (isQuoted)

variable {options : Options} {w w' : World}

/-- The settings of a run obey the rules, wherever they come from. -/
theorem violation?_of_settingsOn {s : Settings} (h : settingsOn options w = .ok s) :
    s.violation? w.order = none := by
  rw [settingsOn_eq_settingsFile?] at h
  split at h
  · cases h
  · exact Settings.violation?_of_loadOn h
  · cases h
    exact Settings.violation?_standard w.order

theorem mem_keys_context_iff {s : Settings} {extra : Replacements} {key : Text} :
    key ∈ (context s extra.entries).table.keys ↔
      key ∈ extra.keys ∨ key ∈ (s.context .standard).table.keys := by
  have hextra : (∃ entry ∈ extra.entries, entry.1 = key) ↔ key ∈ extra.keys :=
    List.mem_map.symm
  rw [context, Replacements.mem_keys_layer, hextra]

/-- All keys of a run are quoted exactly if those of the file with further replacements are.
Each key of that file is in the table, and every other key of the table is quoted. -/
theorem isQuoted_keys_iff {colour : Bool} {result : Result}
    (h : (run World.host colour options).run w = (.ok result, w')) :
    ∃ extra : Replacements,
      (options.mappings = none → extra = .empty) ∧
      (∀ p, options.mappings = some p →
        ∃ t, w.text p = .ok t ∧ Replacements.ofText t = .ok extra) ∧
      (∀ key ∈ extra.keys, key ∈ result.table.keys) ∧
      (∀ key ∈ result.table.keys, key ∉ extra.keys → isQuoted key) ∧
      ((∀ key ∈ result.table.keys, isQuoted key) ↔ ∀ key ∈ extra.keys, isQuoted key) := by
  obtain ⟨s, further, hs, hfurther, -, htable⟩ := exists_of_run_ok h
  obtain ⟨extra, rfl, hnone, hsome⟩ := exists_table_of_furtherOn hfurther
  have hextra : ∀ key ∈ extra.keys, key ∈ result.table.keys := by
    intro key hkey
    rw [htable, mem_keys_context_iff]
    exact .inl hkey
  have hothers : ∀ key ∈ result.table.keys, key ∉ extra.keys → isQuoted key := by
    intro key hkey hnot
    rw [htable, mem_keys_context_iff] at hkey
    have hrules := violation?_of_settingsOn hs
    exact Settings.isQuoted_iff.2
      (Settings.exists_ofInterior_of_mem_keys hrules (hkey.resolve_left hnot))
  refine ⟨extra, hnone, hsome, hextra, hothers, ?_⟩
  constructor
  · intro hall key hkey
    exact hall key (hextra key hkey)
  · intro hall key hkey
    by_cases hin : key ∈ extra.keys
    · exact hall key hin
    · exact hothers key hkey hin

/-- A text with one entry, whose key has no quotes. -/
def unquotedText : Text := "\x7b\"Save\": \"x\"\x7d".toList

/-- A machine with that text as a file of further replacements, and inside of a settings file. -/
def unquotedWorld : World :=
  .quiet ⟨[([.of "m.json"], .file (encodeText unquotedText)),
    ([.of "c.json"],
      .file (encodeText ("\x7b\"mappings\": ".toList ++ unquotedText ++ "\x7d".toList))),
    ([.of "A"], .file (encodeText "\"Save\"".toList))]⟩ []

def unquotedOptions : Options := ⟨[.of "A"], none, some (.of "m.json"), false⟩

theorem exists_run_unquotedWorld :
    ∃ result after, (run World.host false unquotedOptions).run unquotedWorld = (.ok result, after) ∧
      result.table = (context .standard [("Save".toList, ['x'])]).table := by
  have hs : settingsOn unquotedOptions unquotedWorld = .ok .standard := by
    rw [settingsOn_eq]
    decide +kernel
  have hfurther : furtherOn unquotedOptions unquotedWorld = .ok [("Save".toList, ['x'])] := by
    rw [furtherOn_eq]
    decide +kernel
  have hsound : ∀ p ∈ paths unquotedOptions .standard, unquotedWorld.files.IsSound p := by
    intro p hp
    rw [← Files.fault?_eq_none_iff]
    revert p
    decide +kernel
  rw [run_of_ok false _ _ hs hfurther, (Files.survey_of_sound _ hsound).1]
  exact ⟨_, _, rfl, rfl⟩

/-- The key comes into the table from the file of further replacements. In a settings file it
is refused. -/
theorem run_unquotedWorld :
    (∃ result after,
      (run World.host false unquotedOptions).run unquotedWorld = (.ok result, after) ∧
      result.table.find? "Save".toList = some ['x'] ∧ isQuoted "Save".toList = false) ∧
    (run World.host false ⟨[.of "A"], some (.of "c.json"), none, false⟩).run unquotedWorld =
      (.error (.violation (.unquotedKey "Save".toList)), unquotedWorld) := by
  constructor
  · obtain ⟨result, after, hrun, htable⟩ := exists_run_unquotedWorld
    refine ⟨result, after, hrun, ?_, by decide⟩
    rw [htable, context, Replacements.find?_layer]
    rfl
  · apply run_of_settings_error
    rw [settingsOn_eq]
    decide +kernel

/-- So not all keys of that run are quoted, but all others are. -/
theorem isQuoted_keys_iff_unquotedWorld :
    ∃ result after,
      (run World.host false unquotedOptions).run unquotedWorld = (.ok result, after) ∧
      (¬ ∀ key ∈ result.table.keys, isQuoted key) ∧
      ∀ key ∈ result.table.keys, key ≠ "Save".toList → isQuoted key := by
  obtain ⟨result, after, hrun, -⟩ := exists_run_unquotedWorld
  obtain ⟨extra, -, hsome, -, hothers, hiff⟩ := isQuoted_keys_iff hrun
  obtain ⟨t, htext, hread⟩ := hsome _ rfl
  have hkeys : (unquotedWorld.text (.of "m.json")).toOption.map
      (fun t => (Replacements.ofText t).toOption.map Replacements.keys) =
      some (some ["Save".toList]) := by
    decide +kernel
  rw [htext] at hkeys
  simp only [Except.toOption, Option.map_some, hread, Option.some.injEq] at hkeys
  rw [hkeys] at hothers hiff
  refine ⟨result, after, hrun, ?_, ?_⟩
  · rw [hiff]
    intro hall
    have hsave : isQuoted "Save".toList = true := hall _ (List.mem_singleton_self _)
    revert hsave
    decide
  · intro key hkey hne
    exact hothers key hkey (by simpa using hne)

end Audit

end LiteralAudit
