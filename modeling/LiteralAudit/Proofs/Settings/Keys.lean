import LiteralAudit.Proofs.Finding.Live
import LiteralAudit.Proofs.Settings.Rules

/-!
# The entries of settings that obey the rules

A rule asks for quotes around the keys in the settings, and the standard keys have them. That is
not enough for an entry to be live. What stands between the quotes has to be an interior of the
grammar, which holds of all standard keys, and the filter of the same settings has to accept it,
which it does not do for all of them.
-/

namespace LiteralAudit

open Literal (IsInterior ofInterior)

/-! ## Standard keys -/

namespace Replacements

theorem isInterior_of_mem_standardEntries {entry : Text × Text} (h : entry ∈ standardEntries) :
    ∃ interior, entry.1 = ofInterior interior ∧ IsInterior interior := by
  have hall : ∀ pair ∈ signingIn ++ overview ++ caseScreens ++ everywhere,
      IsInterior pair.1.toList := by
    decide +kernel
  obtain ⟨pair, hpair, rfl⟩ := List.mem_map.1 h
  exact ⟨pair.1.toList, rfl, hall pair hpair⟩

theorem isInterior_of_mem_standard {key : Text} (h : key ∈ standard.keys) :
    ∃ interior, key = ofInterior interior ∧ IsInterior interior := by
  rcases mem_keys_layer.1 h with ⟨entry, hentry, rfl⟩ | hempty
  · exact isInterior_of_mem_standardEntries hentry
  · cases hempty

end Replacements

/-! ## Keys of the table that settings ask for -/

namespace Settings

variable {s : Settings} {key expression : Text}

theorem find?_table (s : Settings) (key : Text) :
    (s.context .standard).table.find? key =
      (s.mappings.find? key).or (Replacements.standard.find? key) :=
  Replacements.find?_layer_entries .standard s.mappings key

/-- A key of the table comes from the settings or is a standard one. -/
theorem mem_keys_context (h : key ∈ (s.context .standard).table.keys) :
    key ∈ s.mappings.keys ∨ key ∈ Replacements.standard.keys := by
  refine (Replacements.mem_keys_layer.1 h).imp_left ?_
  rintro ⟨entry, hentry, rfl⟩
  exact List.mem_map_of_mem hentry

/-- Under the rules every key has its quotes, wherever it comes from. -/
theorem exists_ofInterior_of_mem_keys {order : KeyOrder} (hrules : s.violation? order = none)
    (h : key ∈ (s.context .standard).table.keys) : ∃ interior, key = ofInterior interior := by
  obtain ⟨-, -, -, hquoted⟩ := violation?_eq_none_iff.1 hrules
  rcases mem_keys_context h with hgiven | hstandard
  · exact isQuoted_iff.1 (hquoted key hgiven)
  · obtain ⟨interior, heq, -⟩ := Replacements.isInterior_of_mem_standard hstandard
    exact ⟨interior, heq⟩

/-- Under the rules every entry of the table has some text between double quotes as its key, and
it is live exactly if this is an interior of the grammar, is long enough for the settings and
does not begin with an excluded character. Then the key alone is a text with one suggestion, the
entry; otherwise the key is suggested in no text. All standard keys are of the grammar. -/
theorem suggestions_key_iff {order : KeyOrder} (hrules : s.violation? order = none)
    (hkey : (s.context .standard).table.find? key = some expression) :
    ∃ interior, key = ofInterior interior ∧
      (key ∈ Replacements.standard.keys → IsInterior interior) ∧
      ∀ path,
        ((Finding.ofText (s.context .standard) path key).suggestions = [⟨key, expression⟩] ↔
          IsInterior interior ∧ s.minLength < interior.length ∧
            ∀ c, interior.head? = some c → c ∉ s.excludedPrefixes) ∧
        ((Finding.ofText (s.context .standard) path key).suggestions ≠ [⟨key, expression⟩] →
          ∀ source, ∀ suggestion ∈ (Finding.ofText (s.context .standard) path source).suggestions,
            suggestion.literal ≠ key) := by
  obtain ⟨-, hlimit, -, -⟩ := violation?_eq_none_iff.1 hrules
  have hmem : key ∈ (s.context .standard).table.keys := by
    rw [Replacements.mem_keys_iff, hkey]
    rfl
  have hself : (s.context .standard).filter.Admits key → ∀ path,
      (Finding.ofText (s.context .standard) path key).suggestions = [⟨key, expression⟩] :=
    Finding.suggestions_of_admits hlimit hkey
  obtain ⟨interior, rfl⟩ := exists_ofInterior_of_mem_keys hrules hmem
  refine ⟨interior, rfl, ?_, ?_⟩
  · intro hstandard
    obtain ⟨other, heq, hi⟩ := Replacements.isInterior_of_mem_standard hstandard
    rwa [Literal.ofInterior_injective heq]
  · intro path
    have hadmits : (s.context .standard).filter.Admits (ofInterior interior) ↔
        IsInterior interior ∧ s.minLength < interior.length ∧
          ∀ c, interior.head? = some c → c ∉ s.excludedPrefixes := by
      rw [Filter.admits_ofInterior_iff, Filter.accepts_iff]
      rfl
    rw [← hadmits]
    refine ⟨⟨?_, fun h => hself h path⟩, ?_⟩
    · intro h
      have hs : ⟨ofInterior interior, expression⟩ ∈
          (Finding.ofText (s.context .standard) path (ofInterior interior)).suggestions := by
        rw [h]
        exact List.mem_singleton_self _
      exact Finding.admits_of_suggestion hs
    · intro hne source suggestion hs heq
      have hlive := Finding.admits_of_suggestion hs
      rw [heq] at hlive
      exact hne (hself hlive path)

/-- Settings with two keys whose last quote closes no literal that begins at their first one. -/
def hollowSettings : Settings :=
  { standard with
    mappings := .ofList
      [(ofInterior "one\\".toList, ['x']), (ofInterior "one\"two".toList, ['y'])] }

/-- Entries that are never suggested although the settings obey the rules: a standard one that is
too short for the standard settings, one whose last quote is escaped, and one that holds another
quote. -/
theorem suggestions_key_hollow :
    (∀ order, standard.violation? order = none) ∧
    (standard.context .standard).table.find? (ofInterior "OK".toList) =
      some "t('common.ok')".toList ∧
    (Finding.ofText (standard.context .standard) [] (ofInterior "OK".toList)).suggestions = [] ∧
    (∀ order, hollowSettings.violation? order = none) ∧
    ∀ entry ∈ hollowSettings.mappings.entries,
      (hollowSettings.context .standard).table.find? entry.1 = some entry.2 ∧
      (Finding.ofText (hollowSettings.context .standard) [] entry.1).suggestions = [] := by
  have hshort : (standard.context .standard).table.find? (ofInterior "OK".toList) =
      some "t('common.ok')".toList := by
    rw [find?_table, Replacements.find?_standard]
    decide +kernel
  have hgiven : ∀ entry ∈ hollowSettings.mappings.entries,
      hollowSettings.mappings.find? entry.1 = some entry.2 := by
    decide +kernel
  have hdead : ∀ entry ∈ hollowSettings.mappings.entries,
      (Finding.ofText (hollowSettings.context .standard) [] entry.1).suggestions = [] := by
    decide +kernel
  have hrules : ∀ order, hollowSettings.violation? order = none := by
    intro order
    rw [violation?_eq_none_iff]
    decide +kernel
  refine ⟨violation?_standard, hshort, by decide +kernel, hrules, ?_⟩
  intro entry hentry
  rw [find?_table, hgiven entry hentry]
  exact ⟨rfl, hdead entry hentry⟩

/-- The standard key that is too short is live where the settings ask for less. -/
theorem suggestions_key_lenient :
    (Finding.ofText (Settings.context { standard with minLength := 1 } .standard) []
        (ofInterior "OK".toList)).suggestions =
      [⟨ofInterior "OK".toList, "t('common.ok')".toList⟩] ∧
    ∀ source, ∀ suggestion ∈
        (Finding.ofText (hollowSettings.context .standard) [] source).suggestions,
      suggestion.literal ≠ ofInterior "one\\".toList := by
  constructor
  · have hrules : violation? { standard with minLength := 1 } .ascending = none := by
      decide +kernel
    have hkey : (Settings.context { standard with minLength := 1 } .standard).table.find?
        (ofInterior "OK".toList) = some "t('common.ok')".toList := by
      rw [find?_table, Replacements.find?_standard]
      decide +kernel
    obtain ⟨interior, heq, -, hlive⟩ := suggestions_key_iff hrules hkey
    rw [(hlive []).1, ← Literal.ofInterior_injective heq]
    refine ⟨by decide, by decide, ?_⟩
    intro c hc
    cases hc
    decide
  · have hrules : hollowSettings.violation? .ascending = none := by decide +kernel
    have hkey : (hollowSettings.context .standard).table.find? (ofInterior "one\\".toList) =
        some ['x'] := by
      have hgiven : hollowSettings.mappings.find? (ofInterior "one\\".toList) = some ['x'] := by
        decide +kernel
      rw [find?_table, hgiven]
      rfl
    obtain ⟨interior, heq, -, hlive⟩ := suggestions_key_iff hrules hkey
    apply (hlive []).2
    rw [ne_eq, (hlive []).1, ← Literal.ofInterior_injective heq]
    rintro ⟨hi, -⟩
    revert hi
    decide

end Settings

end LiteralAudit
