import LiteralAudit.Proofs.Settings.Members
import Mathlib.Data.List.Nodup

/-!
# Settings objects

What a settings file may look like: an object with some of the fields, in any order and with
members of other names between them, every string in any spelling and any white space
between the tokens. It stands for the settings that have these fields from it and the
standard values in the others, unless a field is given twice.
-/

namespace LiteralAudit.Settings

open Json

/-- The numbers of the settings are no greater than a machine holds. -/
def FitsWords (s : Settings) : Prop :=
  s.minLength < naturalBound ∧ s.previewLimit < naturalBound

instance (s : Settings) : Decidable s.FitsWords :=
  inferInstanceAs (Decidable (s.minLength < naturalBound ∧ s.previewLimit < naturalBound))

/-- The text stands for the value that the field has in the settings. -/
def Field.IsWritten (field : Field) (s : Settings) (t : Text) : Prop :=
  match field with
  | .appName => IsString t s.appName
  | .files => IsList IsString t s.files
  | .marker => IsString t s.marker
  | .importStatement => IsString t s.importStatement
  | .hookStatement => IsString t s.hookStatement
  | .minLength => t = Text.ofNat s.minLength
  | .excludedPrefixes => IsList (fun item c => IsString item [c]) t s.excludedPrefixes
  | .previewLimit => t = Text.ofNat s.previewLimit
  | .guideFile => IsString t s.guideFile
  | .mappings => IsTable t s.mappings

/-- A member of a settings file: a field with such a value, or a member with another name,
whose value may be anything. -/
inductive IsMemberOf (IsOne : Field → Text → Prop) : Text → Option Field → Prop where
  | field {field : Field} {t : Text} (h : IsMember field.name (IsOne field) t) :
      IsMemberOf IsOne t (some field)
  | other {key t : Text} (hkey : ∀ field : Field, field.name ≠ key)
      (h : IsMember key IsValue t) : IsMemberOf IsOne t none

/-- A text that holds an object with such members, in this order. -/
def IsObjectOf (IsOne : Field → Text → Prop) (members : List (Option Field)) (text : Text) :
    Prop :=
  ∃ before row after, IsSpace before ∧ IsSpace after ∧
    Row '\x7d' (IsMemberOf IsOne) true members row ∧ text = before ++ '\x7b' :: (row ++ after)

/-! ## Fields -/

theorem isElement_isString {t value : Text} (h : IsString t value) : IsElement string t value where
  reads := h.reads
  begins := by
    obtain ⟨rest, rfl⟩ := h.begins
    exact ⟨'"', rest, rfl, rfl, by decide⟩

theorem isElement_isCharacter {t : Text} {c : Char} (h : IsString t [c]) :
    IsElement character t c where
  reads := h.reads_character
  begins := by
    obtain ⟨rest, rfl⟩ := h.begins
    exact ⟨'"', rest, rfl, rfl, by decide⟩

/-- Whatever stands for the value of a field is read as this value. -/
theorem Field.IsWritten.readsAs {field : Field} {s : Settings} {t : Text}
    (h : field.IsWritten s t) (hs : s.FitsWords) : field.ReadsAs s t := by
  intro target
  cases field with
  | appName => exact reads_into (IsString.reads h) fun a => { target with appName := a }
  | files =>
    exact reads_into (IsList.reads h fun _ _ hitem => isElement_isString hitem)
      fun as => { target with files := as }
  | marker => exact reads_into (IsString.reads h) fun a => { target with marker := a }
  | importStatement =>
    exact reads_into (IsString.reads h) fun a => { target with importStatement := a }
  | hookStatement =>
    exact reads_into (IsString.reads h) fun a => { target with hookStatement := a }
  | minLength =>
    obtain rfl : t = Text.ofNat s.minLength := h
    exact reads_into (reads_ofNat hs.1) fun n => { target with minLength := n }
  | excludedPrefixes =>
    exact reads_into (IsList.reads h fun _ _ hitem => isElement_isCharacter hitem)
      fun cs => { target with excludedPrefixes := cs }
  | previewLimit =>
    obtain rfl : t = Text.ofNat s.previewLimit := h
    exact reads_into (reads_ofNat hs.2) fun n => { target with previewLimit := n }
  | guideFile => exact reads_into (IsString.reads h) fun a => { target with guideFile := a }
  | mappings => exact reads_into (IsTable.reads h) fun entries => { target with mappings := entries }

/-! ## Objects -/

theorem named?_eq_none {key : Text} (h : ∀ field : Field, field.name ≠ key) :
    Field.named? key = none := by
  rw [Field.named?, List.find?_eq_none]
  intro field _
  simpa using h field

/-- A member is met by the reader as the field that it holds, or as one to pass over. -/
theorem IsMemberOf.isMemberFrom {IsOne : Field → Text → Prop} {IsSource : Settings → Prop}
    (hone : ∀ field value, IsOne field value → ∃ s, IsSource s ∧ Field.ReadsAs field s value)
    {t : Text} {member : Option Field} (h : IsMemberOf IsOne t member) :
    IsMemberFrom IsSource t member := by
  cases h with
  | field h =>
    obtain ⟨body, before, after, value, hkey, hbefore, hafter, hvalue, rfl⟩ := h
    obtain ⟨s, hs, hreads⟩ := hone _ _ hvalue
    exact .field hs ⟨body, before, after, value, hkey, hbefore, hafter, hreads, rfl⟩
  | other hkey h => exact .other (named?_eq_none hkey) (h.imp fun _ => reads_skimmed)

theorem value_object {before : Text} (hbefore : IsSpace before) (rest : Text) :
    value (before ++ '\x7b' :: rest) =
      fieldsByName (rest.length + 1) true [] standard rest := by
  rw [value, hbefore.skipSpace_token (by decide)]
  rfl

theorem ofText_of_nodup {s : Settings} (hs : s.FitsWords) {members : List (Option Field)}
    {text : Text} (h : IsObjectOf (fun field => field.IsWritten s) members text)
    (hnodup : members.reduceOption.Nodup) :
    ofText text = .ok (takeOverAll members.reduceOption s standard) := by
  obtain ⟨before, row, after, hbefore, hafter, hrow, rfl⟩ := h
  have hmember : ∀ t member, IsMemberOf (fun field => field.IsWritten s) t member →
      IsMemberFrom (· = s) t member := by
    intro t member hmember
    refine hmember.isMemberFrom ?_
    intro field value hvalue
    exact ⟨s, rfl, hvalue.readsAs hs⟩
  have hrow := hrow.map (f := id) hmember
  rw [List.map_id] at hrow
  have hclock : row.length < (row ++ after).length + 1 := by
    simp only [List.length_append]
    omega
  refine document_eq_ok_iff.2 ⟨after, ?_, hafter⟩
  rw [value_object hbefore]
  exact fieldsByName_row hrow after hclock hnodup

theorem ofText_of_repeated {members : List (Option Field)} {text : Text}
    (h : IsObjectOf (fun field value => ∃ s : Settings, s.FitsWords ∧ field.IsWritten s value)
      members text)
    (hrepeated : ¬ members.reduceOption.Nodup) :
    ∃ field fault, 2 ≤ members.reduceOption.count field ∧ ofText text = .error fault ∧
      fault.cause = .duplicateField field.name := by
  obtain ⟨before, row, after, hbefore, -, hrow, rfl⟩ := h
  have hmember : ∀ t member,
      IsMemberOf (fun field value => ∃ s : Settings, s.FitsWords ∧ field.IsWritten s value)
        t member → IsMemberFrom FitsWords t member := by
    intro t member hmember
    refine hmember.isMemberFrom ?_
    rintro field value ⟨s, hs, hvalue⟩
    exact ⟨s, hs, hvalue.readsAs hs⟩
  have hrow := hrow.map (f := id) hmember
  rw [List.map_id] at hrow
  have hclock : row.length < (row ++ after).length + 1 := by
    simp only [List.length_append]
    omega
  obtain ⟨field, fault, hcount, hread, hcause⟩ :=
    fieldsByName_repeated hrow after hclock List.nodup_nil hrepeated
  refine ⟨field, fault, hcount, ?_, hcause⟩
  rw [ofText, document, value_object hbefore, hread]
  rfl

theorem count_reduceOption (members : List (Option Field)) (field : Field) :
    members.reduceOption.count field = members.count (some field) := by
  induction members with
  | nil => rfl
  | cons member members ih =>
    cases member with
    | none => rwa [List.reduceOption_cons_of_none, List.count_cons_of_ne (by simp)]
    | some other => simp [List.reduceOption_cons_of_some, List.count_cons, ih]

/-- A settings object without a repeated field is read, whatever else it holds: the fields
that it gives are those of the settings for which it was written, and the others have their
standard values. If a field is given twice, each time with a value of its type, the object is
refused for a repeated field. -/
theorem ofText_object {members : List (Option Field)} {text : Text} :
    (∀ s : Settings, s.FitsWords → IsObjectOf (fun field => field.IsWritten s) members text →
      (∀ field, members.count (some field) ≤ 1) →
      ∃ read, ofText text = .ok read ∧
        ∀ field : Field, field.Agrees read (if some field ∈ members then s else standard)) ∧
    (IsObjectOf (fun field value => ∃ s : Settings, s.FitsWords ∧ field.IsWritten s value)
        members text →
      (∃ field, 2 ≤ members.count (some field)) →
      ∃ repeated fault, 2 ≤ members.count (some repeated) ∧ ofText text = .error fault ∧
        fault.cause = .duplicateField repeated.name) := by
  constructor
  · intro s hs hobject hcount
    have hnodup : members.reduceOption.Nodup := by
      rw [List.nodup_iff_count_le_one]
      intro field
      rw [count_reduceOption]
      exact hcount field
    refine ⟨_, ofText_of_nodup hs hobject hnodup, ?_⟩
    intro field
    have hagrees := agrees_takeOverAll members.reduceOption field s standard
    simpa only [List.reduceOption_mem_iff] using hagrees
  · rintro hobject ⟨field, hfield⟩
    have hrepeated : ¬ members.reduceOption.Nodup := by
      intro hnodup
      have hle := List.nodup_iff_count_le_one.1 hnodup field
      rw [count_reduceOption] at hle
      omega
    obtain ⟨repeated, fault, hcount, hread⟩ := ofText_of_repeated hobject hrepeated
    rw [count_reduceOption] at hcount
    exact ⟨repeated, fault, hcount, hread⟩

/-- Settings with an accent in the name and another limit. -/
def accentedSettings : Settings := { standard with appName := ['é'], previewLimit := 7 }

def limitMember : Text := "\"previewLimit\" : 7".toList

/-- The name in another spelling. -/
def nameMember : Text := "\"\\u0061ppName\": \"\\u00e9\"".toList

/-- A member with a name of its own. The key inside it is no text. -/
def strangeMember : Text := "\"x\": [\x7b\"\\ud800\":-1.5e3\x7d, null]".toList

theorem isMember_limitMember :
    IsMember Field.previewLimit.name (Field.previewLimit.IsWritten accentedSettings)
      limitMember :=
  ⟨_, [' '], [' '], ['7'], isSpelling_written _, by decide, by decide, rfl, by decide⟩

theorem isMember_nameMember :
    IsMember Field.appName.name (Field.appName.IsWritten accentedSettings) nameMember := by
  have ha : SpellsChar "\\u0061".toList 'a' :=
    .unit ⟨'0', '0', '6', '1', 0, 0, 6, 1, rfl, by decide, by decide, by decide, by decide, rfl⟩
  have hé : SpellsChar "\\u00e9".toList 'é' :=
    .unit ⟨'0', '0', 'e', '9', 0, 0, 14, 9, rfl, by decide, by decide, by decide, by decide, rfl⟩
  have hname : 'a' :: "ppName".toList = Field.appName.name := by decide
  have hkey := IsSpelling.cons ha (isSpelling_written "ppName".toList)
  have hvalue : Field.appName.IsWritten accentedSettings _ := ⟨_, .cons hé .nil, rfl⟩
  rw [hname] at hkey
  exact ⟨_, [], [' '], _, hkey, isSpace_nil, by decide, hvalue, by decide⟩

theorem isMemberOf_strangeMember (IsOne : Field → Text → Prop) :
    IsMemberOf IsOne strangeMember none := by
  have hkey : ∀ field : Field, field.name ≠ ['x'] := by
    intro field
    cases field <;> decide
  have hspelling : IsSpelling ['x'] ['x'] := isSpelling_written ['x']
  have hbody : IsStringBody ('\\' :: 'u' :: (['d', '8', '0', '0'] ++ [])) :=
    .unit ⟨_, _, _, _, 13, 8, 0, 0, rfl, by decide, by decide, by decide, by decide, rfl⟩ .nil
  have hwhole : IsWhole ['1'] := .digits rfl (by decide) (by simp)
  have hfraction : IsFraction ['.', '5'] := .digits ⟨by simp, by simp⟩
  have hexponent : IsExponent ('e' :: ([] ++ ['3'])) :=
    .digits (.inl rfl) (by simp) ⟨by simp, by simp⟩
  have hnumber := IsPart.negative (.parts hwhole hfraction hexponent)
  have hobject := IsPart.bracket (b := .object)
    (.first isSpace_nil (.object hbody isSpace_nil isSpace_nil) hnumber (.close isSpace_nil))
  have hnull : IsValue "null".toList := .word (by decide)
  have hspace : IsSpace [' '] := by decide
  have hlist := IsPart.bracket (b := .list)
    (.first isSpace_nil .list hobject (.next isSpace_nil hspace .list hnull (.close isSpace_nil)))
  exact .other hkey ⟨_, [], _, _, hspelling, isSpace_nil, hspace, hlist, by decide⟩

/-- Two fields in another order than the written one, around a member of another name. -/
def patchyText : Text :=
  " \x7b".toList ++ limitMember ++ ",\n".toList ++ strangeMember ++ [','] ++ nameMember ++
    "\x7d ".toList

/-- The name twice, around a member of another name. -/
def doubledText : Text :=
  " \x7b".toList ++ nameMember ++ ",\n".toList ++ strangeMember ++ [','] ++ nameMember ++
    "\x7d ".toList

/-- Three members, the first and the last of them fields. -/
theorem isObjectOf_three {IsOne : Field → Text → Prop} {one other : Field} {first last : Text}
    (hfirst : IsMember one.name (IsOne one) first)
    (hlast : IsMember other.name (IsOne other) last) :
    IsObjectOf IsOne [some one, none, some other]
      (" \x7b".toList ++ first ++ ",\n".toList ++ strangeMember ++ [','] ++ last ++
        "\x7d ".toList) := by
  have hspace : IsSpace [' '] := by decide
  have hnewline : IsSpace ['\n'] := by decide
  have hrow : Row '\x7d' (IsMemberOf IsOne) true [some one, none, some other] _ :=
    .first isSpace_nil (.field hfirst)
      (.next isSpace_nil hnewline (isMemberOf_strangeMember IsOne)
        (.next isSpace_nil isSpace_nil (.field hlast) (.close isSpace_nil)))
  exact ⟨_, _, _, hspace, hspace, hrow, by simp⟩

theorem ofText_object_patchyText :
    ofText patchyText = .ok accentedSettings ∧
    ∃ fault, ofText doubledText = .error fault ∧
      fault.cause = .duplicateField "appName".toList := by
  have hfits : accentedSettings.FitsWords := by decide
  constructor
  · have hobject : IsObjectOf (fun field => field.IsWritten accentedSettings)
        [some .previewLimit, none, some .appName] patchyText :=
      isObjectOf_three isMember_limitMember isMember_nameMember
    have hcount : ∀ field : Field,
        [some Field.previewLimit, none, some .appName].count (some field) ≤ 1 := by
      intro field
      cases field <;> decide
    obtain ⟨read, hread, hagrees⟩ := ofText_object.1 accentedSettings hfits hobject hcount
    have heq : read = accentedSettings := by
      apply eq_of_agrees
      intro field
      exact (hagrees field).trans (by cases field <;> rfl)
    rw [hread, heq]
  · have hvalue : IsMember Field.appName.name
        (fun value => ∃ s : Settings, s.FitsWords ∧ Field.appName.IsWritten s value)
        nameMember :=
      isMember_nameMember.imp fun _ hwritten => ⟨accentedSettings, hfits, hwritten⟩
    have hobject : IsObjectOf
        (fun field value => ∃ s : Settings, s.FitsWords ∧ field.IsWritten s value)
        [some .appName, none, some .appName] doubledText := isObjectOf_three hvalue hvalue
    obtain ⟨repeated, fault, hcount, hread, hcause⟩ :=
      ofText_object.2 hobject ⟨.appName, by decide⟩
    have hrepeated : repeated = .appName := by
      cases repeated <;> first | rfl | exact absurd hcount (by decide)
    rw [hrepeated] at hcause
    exact ⟨fault, hread, hcause⟩

end LiteralAudit.Settings
