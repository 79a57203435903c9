import LiteralAudit.Json.Writer
import LiteralAudit.Settings

/-!
The text of a settings file. All ten fields are written, in their order. The mappings
are a finite map, so the order in which their entries are listed is free; a file that
is written has them in the order of the table.
-/

namespace LiteralAudit.Settings

/-- The value of a field as it is written inside the object, the entries of the
mappings listed as given. -/
def Field.listed (field : Field) (entries : List (Text × Text)) (s : Settings) : Text :=
  match field with
  | .appName => Json.writtenString s.appName
  | .files => Json.writtenList 1 (s.files.map Json.writtenString)
  | .marker => Json.writtenString s.marker
  | .importStatement => Json.writtenString s.importStatement
  | .hookStatement => Json.writtenString s.hookStatement
  | .minLength => Text.ofNat s.minLength
  | .excludedPrefixes =>
    Json.writtenList 1 (s.excludedPrefixes.map fun c => Json.writtenString [c])
  | .previewLimit => Text.ofNat s.previewLimit
  | .guideFile => Json.writtenString s.guideFile
  | .mappings =>
    Json.writtenObject 1 (entries.map fun (key, value) =>
      Json.writtenMember key (Json.writtenString value))

/-- The settings as the text of a file, the entries of the mappings listed as given. -/
def toTextListing (entries : List (Text × Text)) (s : Settings) : Text :=
  Json.writtenObject 0 (Field.all.map fun field =>
    Json.writtenMember field.name (field.listed entries s))

/-- The settings as the text of a file. -/
def toText (s : Settings) : Text := s.toTextListing s.mappings.entries

/-- The text of a settings file to start from. -/
def standardText : Text := standard.toText

end LiteralAudit.Settings
