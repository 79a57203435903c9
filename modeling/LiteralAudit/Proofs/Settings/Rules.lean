import LiteralAudit.Proofs.Replacements
import LiteralAudit.Settings

/-!
# The rules for settings

Settings break no rule exactly if they have a marker, a preview, no blank path and only quoted
keys. A key is quoted if it is any text between double quotes; the rule does not ask whether
the text is an interior of the grammar. What is found is the first rule that they break, and
only of several keys without quotes does it depend on the order of the keys which one is named.
-/

namespace LiteralAudit.Settings

/-- One quote alone is not enough: the last quote has to stand behind the first. -/
theorem isQuoted_iff {key : Text} :
    isQuoted key ↔ ∃ interior, key = Literal.ofInterior interior := by
  simp only [isQuoted, Bool.and_eq_true, decide_eq_true_eq]
  constructor
  · rintro ⟨⟨hlength, hhead⟩, hlast⟩
    obtain ⟨rest, rfl⟩ := List.head?_eq_some_iff.1 hhead
    rcases List.eq_nil_or_concat rest with rfl | ⟨interior, c, rfl⟩
    · simp at hlength
    · have hquote : c = '"' := by
        rw [List.concat_eq_append, ← List.cons_append, List.getLast?_concat] at hlast
        exact Option.some.inj hlast
      exact ⟨interior, by simp [Literal.ofInterior, hquote]⟩
  · rintro ⟨interior, rfl⟩
    refine ⟨⟨?_, rfl⟩, List.getLast?_concat⟩
    simp only [Literal.ofInterior, List.length_append, List.length_singleton]
    omega

theorem violation?_eq_none_iff {s : Settings} {order : KeyOrder} :
    s.violation? order = none ↔
      s.marker ≠ [] ∧ 1 ≤ s.previewLimit ∧ (∀ file ∈ s.files, file.blank = false) ∧
        ∀ key ∈ s.mappings.keys, isQuoted key := by
  have hkeys : (order.arrange s.mappings.keys).find? (fun key => !isQuoted key) = none ↔
      ∀ key ∈ s.mappings.keys, isQuoted key := by
    simp [List.find?_eq_none, (order.perm _).mem_iff]
  unfold violation?
  by_cases hmarker : s.marker = []
  · simp [hmarker]
  by_cases hlimit : s.previewLimit = 0
  · simp [hmarker, hlimit]
  have hpreview : 1 ≤ s.previewLimit := Nat.one_le_iff_ne_zero.2 hlimit
  rw [if_neg (by simpa using hmarker), if_neg hlimit]
  cases hblank : s.files.findIdx? Text.blank with
  | some index =>
    have hnot : ¬ ∀ file ∈ s.files, file.blank = false := by
      rw [← List.findIdx?_eq_none_iff, hblank]
      exact Option.some_ne_none index
    simp [hnot]
  | none =>
    have hfiles := List.findIdx?_eq_none_iff.1 hblank
    simp only [Option.map_eq_none_iff, hkeys]
    exact ⟨fun h => ⟨hmarker, hpreview, hfiles, h⟩, fun h => h.2.2.2⟩

/-- The standard settings obey the rules. -/
theorem violation?_standard (order : KeyOrder) : standard.violation? order = none := by
  rw [violation?_eq_none_iff]
  decide +kernel

variable {s : Settings}

/-! ## The first rule that is broken -/

/-- A key with its quotes: it begins with one and ends with one, and these are two. -/
structure HasQuotes (key : Text) : Prop where
  first : key.head? = some '"'
  last : key.getLast? = some '"'
  long : 2 ≤ key.byteSize

theorem hasQuotes_iff {key : Text} : HasQuotes key ↔ isQuoted key := by
  rw [isQuoted, Bool.and_eq_true, Bool.and_eq_true, decide_eq_true_eq, decide_eq_true_eq,
    decide_eq_true_eq]
  constructor
  · rintro ⟨hfirst, hlast, hlong⟩
    refine ⟨⟨?_, hfirst⟩, hlast⟩
    -- a quote alone takes one byte
    obtain ⟨rest, rfl⟩ := List.head?_eq_some_iff.1 hfirst
    cases rest with
    | nil => cases hlong with | step h => cases h
    | cons c rest => simp
  · rintro ⟨⟨hlength, hfirst⟩, hlast⟩
    refine ⟨hfirst, hlast, ?_⟩
    obtain ⟨rest, rfl⟩ := List.head?_eq_some_iff.1 hfirst
    cases rest with
    | nil => cases hlength with | step h => cases h
    | cons c rest =>
      have hquote : ('"' : Char).utf8Size = 1 := rfl
      have hpos := c.utf8Size_pos
      rw [Text.byteSize_cons, Text.byteSize_cons, hquote]
      omega

/-- Settings that break no rule. -/
structure Obeys (s : Settings) : Prop where
  marker : s.marker ≠ []
  preview : 1 ≤ s.previewLimit
  files : ∀ file ∈ s.files, ∃ c ∈ file, Text.isBlank c = false
  keys : ∀ key ∈ s.mappings.keys, HasQuotes key

/-- What settings break. -/
inductive Breaks (s : Settings) : Violation → Prop where
  | marker (h : s.marker = []) : Breaks s .emptyMarker
  | preview (h : s.previewLimit = 0) : Breaks s .noPreview
  | file {index : Nat} {file : Text} (hfile : s.files[index]? = some file)
      (hblank : ∀ c ∈ file, Text.isBlank c) : Breaks s (.blankFile index)
  | key {key : Text} (hkey : key ∈ s.mappings.keys) (hquotes : ¬ HasQuotes key) :
      Breaks s (.unquotedKey key)

/-- The place of a rule in the order of the rules. -/
def Violation.rank : Violation → Nat
  | .emptyMarker => 0
  | .noPreview => 1
  | .blankFile _ => 2
  | .unquotedKey _ => 3

/-- The first is reported before the second. -/
def Violation.Precedes (v other : Violation) : Prop :=
  v.rank < other.rank ∨ ∃ i j, v = .blankFile i ∧ other = .blankFile j ∧ i < j

/-- The first rule that is broken. Two keys without quotes are both first among their kind. -/
structure IsFirstBroken (s : Settings) (v : Violation) : Prop where
  broken : s.Breaks v
  first : ∀ other, s.Breaks other → ¬ other.Precedes v

theorem blank_eq_true_iff {t : Text} : t.blank ↔ ∀ c ∈ t, Text.isBlank c := List.all_eq_true

theorem blank_eq_false_iff {t : Text} : t.blank = false ↔ ∃ c ∈ t, Text.isBlank c = false := by
  simp [Text.blank]

theorem obeys_iff {order : KeyOrder} : s.Obeys ↔ s.violation? order = none := by
  rw [violation?_eq_none_iff]
  constructor
  · rintro ⟨hmarker, hpreview, hfiles, hkeys⟩
    exact ⟨hmarker, hpreview, fun file hfile => blank_eq_false_iff.2 (hfiles file hfile),
      fun key hkey => hasQuotes_iff.1 (hkeys key hkey)⟩
  · rintro ⟨hmarker, hpreview, hfiles, hkeys⟩
    exact ⟨hmarker, hpreview, fun file hfile => blank_eq_false_iff.1 (hfiles file hfile),
      fun key hkey => hasQuotes_iff.2 (hkeys key hkey)⟩

/-- What is found is the first rule that is broken. -/
theorem isFirstBroken_of_violation? {order : KeyOrder} {v : Violation}
    (h : s.violation? order = some v) : s.IsFirstBroken v := by
  unfold violation? at h
  split at h
  · next hmarker =>
    cases h
    refine ⟨.marker (List.isEmpty_iff.1 hmarker), ?_⟩
    rintro _ - (hrank | ⟨_, _, -, heq, -⟩)
    · cases hrank
    · cases heq
  next hmarker =>
  rw [List.isEmpty_iff] at hmarker
  split at h
  · next hpreview =>
    cases h
    refine ⟨.preview hpreview, ?_⟩
    rintro _ hother (hrank | ⟨_, _, -, heq, -⟩)
    · cases hother with
      | marker h => exact hmarker h
      | _ => exact absurd hrank (by simp [Violation.rank])
    · cases heq
  next hpreview =>
  split at h
  · next index hindex =>
    cases h
    obtain ⟨hlt, hblank, hleast⟩ := List.findIdx?_eq_some_iff_getElem.1 hindex
    refine ⟨.file (List.getElem?_eq_getElem hlt) (blank_eq_true_iff.1 hblank), ?_⟩
    rintro _ hother (hrank | ⟨i, j, rfl, heq, hij⟩)
    · cases hother with
      | marker h => exact hmarker h
      | preview h => exact hpreview h
      | _ => exact absurd hrank (by simp [Violation.rank])
    · cases heq
      cases hother with
      | file hfile hearlier =>
        obtain ⟨hi, rfl⟩ := List.getElem?_eq_some_iff.1 hfile
        exact hleast i hij (blank_eq_true_iff.2 hearlier)
  · next hfiles =>
    obtain ⟨key, hkey, rfl⟩ := Option.map_eq_some_iff.1 h
    refine ⟨.key ((order.perm _).mem_iff.1 (List.mem_of_find?_eq_some hkey)) ?_, ?_⟩
    · rw [hasQuotes_iff]
      simpa using List.find?_some hkey
    rintro _ hother (hrank | ⟨_, _, -, heq, -⟩)
    · cases hother with
      | marker h => exact hmarker h
      | preview h => exact hpreview h
      | file hfile hblank =>
        have hnot := List.findIdx?_eq_none_iff.1 hfiles _ (List.mem_of_getElem? hfile)
        rw [blank_eq_true_iff.2 hblank] at hnot
        cases hnot
      | key => exact absurd hrank (by simp [Violation.rank])
    · cases heq

/-- At most one key lacks its quotes. -/
def LacksQuotesOnce (s : Settings) : Prop :=
  ∀ a ∈ s.mappings.keys, ∀ b ∈ s.mappings.keys, ¬ HasQuotes a → ¬ HasQuotes b → a = b

/-- With at most one key without quotes no two rules are first. -/
theorem IsFirstBroken.unique {v other : Violation} (h : s.IsFirstBroken v)
    (hother : s.IsFirstBroken other)
    (hkeys : s.LacksQuotesOnce) : other = v := by
  have hle : ∀ {v other : Violation}, s.IsFirstBroken v → s.IsFirstBroken other →
      v.rank ≤ other.rank := by
    intro v other h hother
    exact Nat.not_lt.1 fun hlt => h.first other hother.broken (.inl hlt)
  have hrank : v.rank = other.rank := Nat.le_antisymm (hle h hother) (hle hother h)
  obtain ⟨hbroken, hfirst⟩ := h
  obtain ⟨hbroken', hfirst'⟩ := hother
  cases hbroken with
  | marker _ =>
    cases hbroken' with
    | marker _ => rfl
    | _ => cases hrank
  | preview _ =>
    cases hbroken' with
    | preview _ => rfl
    | _ => cases hrank
  | @file i _ hfile hblank =>
    cases hbroken' with
    | @file j _ hfile' hblank' =>
      have hji : ¬ j < i := fun hlt => hfirst _ (.file hfile' hblank') (.inr ⟨j, i, rfl, rfl, hlt⟩)
      have hij : ¬ i < j := fun hlt => hfirst' _ (.file hfile hblank) (.inr ⟨i, j, rfl, rfl, hlt⟩)
      rw [Nat.le_antisymm (Nat.not_lt.1 hij) (Nat.not_lt.1 hji)]
    | _ => cases hrank
  | key hkey hquotes =>
    cases hbroken' with
    | key hkey' hquotes' => rw [hkeys _ hkey' _ hkey hquotes' hquotes]
    | _ => cases hrank

/-- With at most one key without quotes the order of the keys makes no difference. -/
theorem LacksQuotesOnce.violation?_eq (h : s.LacksQuotesOnce) (order other : KeyOrder) :
    s.violation? other = s.violation? order := by
  cases hv : s.violation? order with
  | none => exact obeys_iff.1 (obeys_iff.2 hv)
  | some v =>
    have hbroken : s.violation? other ≠ none := by
      intro hother
      rw [obeys_iff.1 (obeys_iff.2 hother)] at hv
      cases hv
    obtain ⟨w, hw⟩ := Option.ne_none_iff_exists'.1 hbroken
    rw [hw, (isFirstBroken_of_violation? hv).unique (isFirstBroken_of_violation? hw) h]

end LiteralAudit.Settings
