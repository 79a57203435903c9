import LiteralAudit.Proofs.Replacements
import LiteralAudit.Proofs.Settings.Objects
import LiteralAudit.Settings.Writer

/-!
# Settings written and read back

A written settings file is an object with all ten fields. What is read of it are the
settings that were written.
-/

namespace LiteralAudit.Settings

open Json

/-- What is written for a field stands for its value, the entries of the mappings listed in
any order. -/
theorem Field.isWritten_listed {s : Settings} {entries : List (Text × Text)}
    (hentries : entries.Perm s.mappings.entries) (field : Field) :
    field.IsWritten s (field.listed entries s) := by
  cases field with
  | appName => exact isString_written s.appName
  | files => exact isList_written 1 fun t _ => isString_written t
  | marker => exact isString_written s.marker
  | importStatement => exact isString_written s.importStatement
  | hookStatement => exact isString_written s.hookStatement
  | minLength => rfl
  | excludedPrefixes => exact isList_written 1 fun c _ => isString_written [c]
  | previewLimit => rfl
  | guideFile => exact isString_written s.guideFile
  | mappings =>
    have htable := isTable_written 1 entries
    rwa [Replacements.ofList_perm hentries] at htable

/-- A member that holds a field of the settings. -/
def IsFieldOf (s : Settings) (t : Text) (field : Field) : Prop :=
  IsMember field.name (field.IsWritten s) t

/-- What is written of some fields is an object with these. -/
theorem isObjectOf_written {s : Settings} {entries : List (Text × Text)}
    (hentries : entries.Perm s.mappings.entries) (fields : List Field) :
    IsObjectOf (fun field => field.IsWritten s) (fields.map some)
      (writtenObject 0 (fields.map fun field =>
        writtenMember field.name (field.listed entries s))) := by
  have hfields : ∀ field ∈ fields,
      IsFieldOf s (writtenMember field.name (field.listed entries s)) field :=
    fun field _ => isMember_written field.name (field.isWritten_listed hentries)
  obtain ⟨row, heq, hrow⟩ := exists_row_of_writtenBlock '\x7b' '\x7d' 0 hfields
  have hmember : ∀ t field, IsFieldOf s t field →
      IsMemberOf (fun field => field.IsWritten s) t (some field) := fun _ _ h => .field h
  refine ⟨[], row, [], isSpace_nil, isSpace_nil, hrow.map hmember, ?_⟩
  rw [List.append_nil]
  exact heq

/-- The text of a settings file is an object with all fields. -/
theorem isObjectOf_toTextListing {s : Settings} {entries : List (Text × Text)}
    (hentries : entries.Perm s.mappings.entries) :
    IsObjectOf (fun field => field.IsWritten s) (Field.all.map some)
      (s.toTextListing entries) := isObjectOf_written hentries Field.all

theorem ofText_toTextListing {s : Settings} (hlength : s.minLength < naturalBound)
    (hlimit : s.previewLimit < naturalBound) {entries : List (Text × Text)}
    (hentries : entries.Perm s.mappings.entries) :
    ofText (s.toTextListing entries) = .ok s := by
  have hall : (Field.all.map some).reduceOption = Field.all := rfl
  have hnodup : (Field.all.map some).reduceOption.Nodup := by decide
  rw [ofText_of_nodup ⟨hlength, hlimit⟩ (isObjectOf_toTextListing hentries) hnodup, hall,
    takeOverAll_all]

/-- What is written of settings is read as these settings, whatever characters their
texts hold. The order in which the entries of the mappings are listed makes no
difference. -/
theorem ofText_toText {s : Settings} (hlength : s.minLength < naturalBound)
    (hlimit : s.previewLimit < naturalBound) :
    ofText s.toText = .ok s ∧
    ∀ entries, entries.Perm s.mappings.entries → ofText (s.toTextListing entries) = .ok s :=
  ⟨ofText_toTextListing hlength hlimit (.refl _),
    fun _ hentries => ofText_toTextListing hlength hlimit hentries⟩

/-- Settings with every kind of character, the greatest number and an empty list. -/
def oddSettings : Settings where
  appName := "\"\\/\x08\x0c\n\r\t\x00\x1f\x7f é\u2028😀".toList
  files := []
  marker := "\\".toList
  importStatement := "\\u0041\x1b".toList
  hookStatement := []
  minLength := 18446744073709551615
  excludedPrefixes := ['"', '\\', '\x01', '😀']
  previewLimit := 0
  guideFile := "\\\"".toList
  mappings := .ofList [("\"a\"".toList, ['\n']), ([], "é".toList)]

theorem ofText_toText_oddSettings :
    oddSettings.minLength < naturalBound ∧ oddSettings.previewLimit < naturalBound ∧
    [("\"a\"".toList, ['\n']), ([], "é".toList)].Perm oddSettings.mappings.entries ∧
    ofText oddSettings.toText = .ok oddSettings ∧
    ofText (oddSettings.toTextListing [("\"a\"".toList, ['\n']), ([], "é".toList)]) =
      .ok oddSettings := by
  have hlength : oddSettings.minLength < naturalBound := by decide
  have hlimit : oddSettings.previewLimit < naturalBound := by decide
  have hperm :
      [("\"a\"".toList, ['\n']), ([], "é".toList)].Perm oddSettings.mappings.entries := by
    decide
  obtain ⟨hread, hlisted⟩ := ofText_toText hlength hlimit
  exact ⟨hlength, hlimit, hperm, hread, hlisted _ hperm⟩

end LiteralAudit.Settings
