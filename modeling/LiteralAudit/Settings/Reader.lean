import LiteralAudit.Json.Reader
import LiteralAudit.Settings

/-!
Reading settings from a JSON text. The text is an object with the fields as
members, in any order, or a list with their values in the written order. A field
that is not given keeps its standard value. Members with other keys are passed
over; a field that is given twice is a fault.
-/

namespace LiteralAudit.Settings

open Json

/-- Reads the value of a field into the settings. -/
def Field.read (field : Field) (s : Settings) (text : Text) : Reading Settings :=
  let into {α : Type} (reading : Reading α) (set : α → Settings) : Reading Settings :=
    reading.map fun (a, rest) => (set a, rest)
  match field with
  | .appName => into (string text) fun t => { s with appName := t }
  | .files => into (list string text) fun ts => { s with files := ts }
  | .marker => into (string text) fun t => { s with marker := t }
  | .importStatement => into (string text) fun t => { s with importStatement := t }
  | .hookStatement => into (string text) fun t => { s with hookStatement := t }
  | .minLength => into (natural text) fun n => { s with minLength := n }
  | .excludedPrefixes => into (list character text) fun cs => { s with excludedPrefixes := cs }
  | .previewLimit => into (natural text) fun n => { s with previewLimit := n }
  | .guideFile => into (string text) fun t => { s with guideFile := t }
  | .mappings => into (table text) fun entries => { s with mappings := entries }

/-- Reads the values of the given fields from a list, for as long as the list goes
on. A list that goes on after the last field is a fault. -/
def valuesInOrder : List Field → Bool → Settings → Text → Except Fault (Settings × Text)
  | [], _, s, text => do return (s, ← endList text)
  | field :: fields, first, s, text => do
    match ← nextElement first text with
    | none => return (s, ← endList text)
    | some text =>
      let (s, text) ← field.read s text
      valuesInOrder fields false s text

/-- The fault of a field that was given before. It is found behind the key, but the
closing bracket of the object is still read if it comes next. -/
def duplicate (field : Field) (text : Text) : Fault :=
  match skipSpace text with
  | '\x7d' :: rest => .before (.duplicateField field.name) rest
  | rest => .before (.duplicateField field.name) rest

/-- Reads the members of an object up to its closing bracket, with the given fields
read before. -/
def fieldsByName : Nat → Bool → List Field → Settings → Text →
    Except Fault (Settings × Text)
  | 0, _, _, _, text => .error (.before .endOfObject text)
  | clock + 1, first, seen, s, text => do
    match ← nextKey first text with
    | none => return (s, ← endObject text)
    | some text =>
      let (key, text) ← characters text
      match Field.named? key with
      | none => fieldsByName clock false seen s (← skim (← colon text))
      | some field =>
        if field ∈ seen then .error (duplicate field text)
        else
          let (s, text) ← field.read s (← colon text)
          fieldsByName clock false (field :: seen) s text

/-- Reads settings from the front of a text. -/
def value (text : Text) : Reading Settings :=
  match skipSpace text with
  | '[' :: rest => valuesInOrder Field.all true standard rest
  | '\x7b' :: rest => fieldsByName (rest.length + 1) true [] standard rest
  | text => .error (refuse .settings text)

/-- The settings that a text holds. -/
def ofText (text : Text) : Except Fault Settings := document value text

end LiteralAudit.Settings
