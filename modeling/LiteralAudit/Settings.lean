import LiteralAudit.Candidate
import LiteralAudit.Path
import LiteralAudit.Replacements
import LiteralAudit.Text.Blank

/-!
The settings of an audit: which files to look at, how to tell whether a file is
already wired for localisation, which literals to report, and the words of the
report. Settings have to obey four rules before they are used.
-/

namespace LiteralAudit

structure Settings where
  /-- The name in the heading of the report. -/
  appName : Text
  /-- The files to look at if none are named on the command line. -/
  files : List Text
  /-- A file that holds this text is wired for localisation. -/
  marker : Text
  /-- The first line that an unwired file is told to add. -/
  importStatement : Text
  /-- The second line that an unwired file is told to add. -/
  hookStatement : Text
  /-- Literals with this many characters or fewer are not reported. -/
  minLength : Nat
  /-- Literals that begin with one of these are not reported. -/
  excludedPrefixes : List Char
  /-- Of each file, this many candidates are looked up in the table. -/
  previewLimit : Nat
  /-- The document that the end of the report points to. -/
  guideFile : Text
  /-- Replacements in addition to the standard ones. -/
  mappings : Replacements
deriving DecidableEq

namespace Settings

/-- What the file that holds the settings of a directory is called. -/
def fileTitle : Text := ".i18nauditrc.json".toList

/-- The name of this file in a path. -/
def fileName : Path := .ofText fileTitle

/-- The settings where no file says anything else. -/
def standard : Settings where
  appName := "Patrick Travel Services Mobile".toList
  files :=
    ["features/auth/screens/RegisterScreen.tsx".toList,
     "features/auth/screens/ForgotPasswordScreen.tsx".toList,
     "app/(tabs)/index.tsx".toList,
     "app/(tabs)/cases.tsx".toList,
     "app/(tabs)/documents.tsx".toList,
     "app/(tabs)/messages.tsx".toList,
     "app/(tabs)/profile.tsx".toList]
  marker := "useTranslation".toList
  importStatement := "import \x7b useTranslation \x7d from 'react-i18next';".toList
  hookStatement := "const \x7b t \x7d = useTranslation();".toList
  minLength := 2
  excludedPrefixes := ['/', '#']
  previewLimit := 5
  guideFile := "I18N_IMPLEMENTATION.md".toList
  mappings := .empty

instance : Inhabited Settings := ⟨standard⟩

/-- The filter for candidates. -/
def filter (s : Settings) : Filter := ⟨s.minLength, s.excludedPrefixes⟩

/-- The rules that settings can break. -/
inductive Violation where
  | emptyMarker
  | noPreview
  | blankFile (index : Nat)
  | unquotedKey (key : Text)
deriving DecidableEq, Repr

/-- A key is quoted if it begins and ends with a double quote; one quote alone does
not do both. -/
def isQuoted (key : Text) : Bool :=
  2 ≤ key.length && key.head? = some '"' && key.getLast? = some '"'

/-- The first rule that the settings break, in the order marker, preview, files and
keys; nothing if they obey all four. Of several keys without quotes it is the first in the
order in which the keys are gone through. -/
def violation? (s : Settings) (order : KeyOrder) : Option Violation :=
  if s.marker.isEmpty then some .emptyMarker
  else if s.previewLimit = 0 then some .noPreview
  else match s.files.findIdx? Text.blank with
    | some index => some (.blankFile index)
    | none =>
      ((order.arrange s.mappings.keys).find? fun key => !isQuoted key).map .unquotedKey

def Violation.describe : Violation → Text
  | .emptyMarker => "'marker' must not be empty".toList
  | .noPreview => "'previewLimit' must be at least 1".toList
  | .blankFile index => "Empty path in 'files' at index ".toList ++ Text.ofNat index
  | .unquotedKey key => "Mapping key must include its double quotes, got: ".toList ++ key

/-- The members of a settings file. -/
inductive Field where
  | appName
  | files
  | marker
  | importStatement
  | hookStatement
  | minLength
  | excludedPrefixes
  | previewLimit
  | guideFile
  | mappings
deriving DecidableEq, Repr

namespace Field

/-- The fields in the order in which they are written, which is also the order in
which a list without keys gives them. -/
def all : List Field :=
  [appName, files, marker, importStatement, hookStatement, minLength, excludedPrefixes,
   previewLimit, guideFile, mappings]

/-- The key of a field. -/
def name : Field → Text
  | appName => "appName".toList
  | files => "files".toList
  | marker => "marker".toList
  | importStatement => "importStatement".toList
  | hookStatement => "hookStatement".toList
  | minLength => "minLength".toList
  | excludedPrefixes => "excludedPrefixes".toList
  | previewLimit => "previewLimit".toList
  | guideFile => "guideFile".toList
  | mappings => "mappings".toList

/-- The field with the given key. -/
def named? (key : Text) : Option Field := all.find? fun field => field.name = key

theorem mem_all (field : Field) : field ∈ all := by cases field <;> decide

/-- Every field is found under its own key. -/
theorem named?_name (field : Field) : named? field.name = some field := by
  cases field <;> decide

end Field

end Settings

end LiteralAudit
