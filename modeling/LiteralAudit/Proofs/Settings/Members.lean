import LiteralAudit.Proofs.Json.Rows
import LiteralAudit.Proofs.Json.Skim
import LiteralAudit.Settings.Reader
import Mathlib.Data.List.ReduceOption

/-!
# The members of a settings file

The reader meets the members of a settings file one by one. At a known key it takes over
one field and leaves the others as they are, at any other key it passes over the value, and
at a known key that it has seen before it stops. So a row of members with different names
comes to settings that have just these fields from the file, in whatever order they stand.
-/

namespace LiteralAudit.Settings

open Json

/-! ## Fields -/

/-- The settings with one field taken over from others. -/
def Field.takeOver (field : Field) (source target : Settings) : Settings :=
  match field with
  | .appName => { target with appName := source.appName }
  | .files => { target with files := source.files }
  | .marker => { target with marker := source.marker }
  | .importStatement => { target with importStatement := source.importStatement }
  | .hookStatement => { target with hookStatement := source.hookStatement }
  | .minLength => { target with minLength := source.minLength }
  | .excludedPrefixes => { target with excludedPrefixes := source.excludedPrefixes }
  | .previewLimit => { target with previewLimit := source.previewLimit }
  | .guideFile => { target with guideFile := source.guideFile }
  | .mappings => { target with mappings := source.mappings }

/-- The settings have the same value in the field. -/
def Field.Agrees (field : Field) (s t : Settings) : Prop :=
  match field with
  | .appName => s.appName = t.appName
  | .files => s.files = t.files
  | .marker => s.marker = t.marker
  | .importStatement => s.importStatement = t.importStatement
  | .hookStatement => s.hookStatement = t.hookStatement
  | .minLength => s.minLength = t.minLength
  | .excludedPrefixes => s.excludedPrefixes = t.excludedPrefixes
  | .previewLimit => s.previewLimit = t.previewLimit
  | .guideFile => s.guideFile = t.guideFile
  | .mappings => s.mappings = t.mappings

theorem Field.agrees_refl (field : Field) (s : Settings) : field.Agrees s s := by
  cases field <;> rfl

theorem Field.Agrees.trans {field : Field} {s t u : Settings} (hst : field.Agrees s t)
    (htu : field.Agrees t u) : field.Agrees s u := by
  cases field <;> exact Eq.trans hst htu

/-- Settings are their fields. -/
theorem eq_of_agrees {s t : Settings} (h : ∀ field : Field, field.Agrees s t) : s = t := by
  obtain ⟨⟩ := s
  obtain ⟨⟩ := t
  rw [mk.injEq]
  exact ⟨h .appName, h .files, h .marker, h .importStatement, h .hookStatement, h .minLength,
    h .excludedPrefixes, h .previewLimit, h .guideFile, h .mappings⟩

/-- A field that is taken over is that of the source, and no other one changes. -/
theorem Field.agrees_takeOver (field other : Field) (source target : Settings) :
    other.Agrees (field.takeOver source target) (if other = field then source else target) := by
  cases field <;> cases other <;> rfl

/-- The settings with some fields taken over from others. -/
def takeOverAll (fields : List Field) (source target : Settings) : Settings :=
  fields.foldl (fun target field => field.takeOver source target) target

/-- The fields that are taken over are those of the source, in whatever order, and no other
one changes. -/
theorem agrees_takeOverAll (fields : List Field) (field : Field) (source target : Settings) :
    field.Agrees (takeOverAll fields source target)
      (if field ∈ fields then source else target) := by
  induction fields generalizing target with
  | nil => exact field.agrees_refl target
  | cons first fields ih =>
    have hrest := ih (first.takeOver source target)
    have hfirst := first.agrees_takeOver field source target
    show field.Agrees (takeOverAll fields source (first.takeOver source target)) _
    by_cases hmem : field ∈ fields
    · rw [if_pos hmem] at hrest
      rwa [if_pos (List.mem_cons_of_mem _ hmem)]
    · rw [if_neg hmem] at hrest
      simp only [List.mem_cons, hmem, or_false]
      exact hrest.trans hfirst

/-- All fields together are the settings. -/
theorem takeOverAll_all (source target : Settings) :
    takeOverAll Field.all source target = source := by
  apply eq_of_agrees
  intro field
  have h := agrees_takeOverAll Field.all field source target
  rwa [if_pos field.mem_all] at h

/-! ## One member -/

/-- The value of a field for the reader of settings: read into any settings, it takes
the field over. -/
def Field.ReadsAs (field : Field) (source : Settings) (t : Text) : Prop :=
  ∀ target, Reads (field.read target) t (field.takeOver source target)

/-- The reader of a field makes settings of the value that it reads. -/
theorem reads_into {α : Type} {reader : Text → Reading α} {t : Text} {a : α}
    (h : Reads reader t a) (set : α → Settings) :
    Reads (fun text => (reader text).map fun (a, rest) => (set a, rest)) t (set a) := by
  intro space behind hspace hbehind
  simp only [h space behind hspace hbehind]
  rfl

/-- What holds of the readers of all types of values, and with a reader of the one that makes
settings of what it reads, holds of the reader of each field. -/
theorem Field.read_of_types {P : (α : Type) → (Text → Reading α) → Prop}
    (hinto : ∀ {α : Type} {reader : Text → Reading α}, P α reader → ∀ set : α → Settings,
      P Settings fun text => (reader text).map fun (a, rest) => (set a, rest))
    (hstring : P Text string) (hstrings : P (List Text) (list string))
    (hcharacters : P (List Char) (list character)) (hnatural : P Nat natural)
    (htable : P Replacements table) (field : Field) (s : Settings) :
    P Settings (field.read s) := by
  cases field with
  | appName => exact hinto hstring fun a => { s with appName := a }
  | files => exact hinto hstrings fun as => { s with files := as }
  | marker => exact hinto hstring fun a => { s with marker := a }
  | importStatement => exact hinto hstring fun a => { s with importStatement := a }
  | hookStatement => exact hinto hstring fun a => { s with hookStatement := a }
  | minLength => exact hinto hnatural fun n => { s with minLength := n }
  | excludedPrefixes => exact hinto hcharacters fun cs => { s with excludedPrefixes := cs }
  | previewLimit => exact hinto hnatural fun n => { s with previewLimit := n }
  | guideFile => exact hinto hstring fun a => { s with guideFile := a }
  | mappings => exact hinto htable fun entries => { s with mappings := entries }

/-- Passing over a value, as a reader that has nothing to answer. -/
def skimmed (text : Text) : Reading Unit := (skim text).map fun rest => ((), rest)

theorem reads_skimmed {value : Text} (h : IsValue value) : Reads skimmed value () := by
  intro space behind hspace hbehind
  rw [skimmed, h.skim hspace hbehind]
  rfl

theorem skim_of_skimmed {text rest : Text} (h : skimmed text = .ok ((), rest)) :
    skim text = .ok rest := by
  rw [skimmed] at h
  cases hskim : skim text with
  | error fault =>
    rw [hskim] at h
    cases h
  | ok behind =>
    rw [hskim] at h
    cases h
    rfl

/-- A member as the reader of settings meets it: one of the fields, with its value in one of
the sources, or a member with another key, which is passed over. -/
inductive IsMemberFrom (IsSource : Settings → Prop) : Text → Option Field → Prop where
  | field {source : Settings} {field : Field} {t : Text} (hsource : IsSource source)
      (h : IsMember field.name (field.ReadsAs source) t) : IsMemberFrom IsSource t (some field)
  | other {key t : Text} (hkey : Field.named? key = none)
      (h : IsMember key (Reads skimmed · ()) t) : IsMemberFrom IsSource t none

theorem IsMemberFrom.begins {IsSource : Settings → Prop} {t : Text} {member : Option Field}
    (h : IsMemberFrom IsSource t member) : ∃ item, t = '"' :: item := by
  cases h with
  | field _ h => exact h.begins
  | other _ h => exact h.begins

section Row

variable {IsSource : Settings → Prop} {first : Bool} {members : List (Option Field)}
  {text : Text} {clock : Nat} {seen : List Field} {target : Settings}

theorem fieldsByName_close (h : Row '\x7d' (IsMemberFrom IsSource) first [] text)
    (behind : Text) :
    fieldsByName (clock + 1) first seen target (text ++ behind) = .ok (target, behind) := by
  obtain ⟨hnext, hend⟩ := nextKey_close h behind
  rw [fieldsByName, hnext]
  simp only [bind, Except.bind, hend]
  rfl

/-- A member with another key changes nothing but the place in the row. -/
theorem fieldsByName_other (h : Row '\x7d' (IsMemberFrom IsSource) first (none :: members) text)
    (behind : Text) :
    ∃ rest, Row '\x7d' (IsMemberFrom IsSource) false members rest ∧ rest.length < text.length ∧
      fieldsByName (clock + 1) first seen target (text ++ behind) =
        fieldsByName clock false seen target (rest ++ behind) := by
  obtain ⟨item, rest, hitem, hrest, hlength, hnext⟩ :=
    nextKey_item (fun _ _ hmember => hmember.begins) h behind
  cases hitem with
  | other hnamed hmember =>
    obtain ⟨afterKey, afterColon, hkey, hcolon, hvalue⟩ :=
      hmember.steps (hrest.endsNumeral (.inr rfl) behind)
    refine ⟨rest, hrest, hlength, ?_⟩
    rw [fieldsByName, hnext]
    simp only [bind, Except.bind, hkey, hnamed, hcolon, skim_of_skimmed hvalue]

/-- A field that was not seen before is taken over from its source. -/
theorem fieldsByName_new {field : Field}
    (h : Row '\x7d' (IsMemberFrom IsSource) first (some field :: members) text)
    (hseen : field ∉ seen) (behind : Text) :
    ∃ source rest, IsSource source ∧ Row '\x7d' (IsMemberFrom IsSource) false members rest ∧
      rest.length < text.length ∧
      fieldsByName (clock + 1) first seen target (text ++ behind) =
        fieldsByName clock false (field :: seen) (field.takeOver source target)
          (rest ++ behind) := by
  obtain ⟨item, rest, hitem, hrest, hlength, hnext⟩ :=
    nextKey_item (fun _ _ hmember => hmember.begins) h behind
  cases hitem with
  | @field source _ _ hsource hmember =>
    obtain ⟨afterKey, afterColon, hkey, hcolon, hvalue⟩ :=
      (hmember.imp fun _ hreads => hreads target).steps (hrest.endsNumeral (.inr rfl) behind)
    refine ⟨source, rest, hsource, hrest, hlength, ?_⟩
    rw [fieldsByName, hnext]
    simp only [bind, Except.bind, hkey, Field.named?_name, hseen, if_false, hcolon, hvalue]

/-- At a field that was seen before the reader stops. -/
theorem fieldsByName_again {field : Field}
    (h : Row '\x7d' (IsMemberFrom IsSource) first (some field :: members) text)
    (hseen : field ∈ seen) (behind : Text) :
    ∃ fault, fieldsByName (clock + 1) first seen target (text ++ behind) = .error fault ∧
      fault.cause = .duplicateField field.name := by
  obtain ⟨item, rest, hitem, hrest, -, hnext⟩ :=
    nextKey_item (fun _ _ hmember => hmember.begins) h behind
  cases hitem with
  | field _ hmember =>
    obtain ⟨afterKey, -, hkey, -, -⟩ :=
      (hmember.imp fun _ hreads => hreads target).steps (hrest.endsNumeral (.inr rfl) behind)
    refine ⟨duplicate field afterKey, ?_, ?_⟩
    · rw [fieldsByName, hnext]
      simp only [bind, Except.bind, hkey, Field.named?_name, hseen, if_true]
    · unfold duplicate
      split <;> rfl

/-! ## All members -/

/-- A row without a repeated field is read up to the closing bracket, and all of its fields
are taken over. -/
theorem fieldsByName_row {source : Settings}
    (h : Row '\x7d' (IsMemberFrom (· = source)) first members text) (behind : Text)
    (hclock : text.length < clock) (hnodup : (seen ++ members.reduceOption).Nodup) :
    fieldsByName clock first seen target (text ++ behind) =
      .ok (takeOverAll members.reduceOption source target, behind) := by
  -- Along the row the target takes over one field after the other, and a field goes from the
  -- members to those that were seen; the clock stays above the text that is left.
  induction members generalizing first text clock seen target with
  | nil =>
    cases clock with
    | zero => cases hclock
    | succ clock => exact fieldsByName_close h behind
  | cons member members ih =>
    cases clock with
    | zero => cases hclock
    | succ clock =>
      cases member with
      | none =>
        obtain ⟨rest, hrest, hlength, hstep⟩ := fieldsByName_other h behind
        rw [hstep]
        exact ih hrest (by omega) hnodup
      | some field =>
        have hnodup : (field :: seen ++ members.reduceOption).Nodup :=
          List.perm_middle.nodup_iff.1 hnodup
        have hseen : field ∉ seen := fun hmem =>
          (List.nodup_cons.1 hnodup).1 (List.mem_append_left _ hmem)
        obtain ⟨source, rest, rfl, hrest, hlength, hstep⟩ := fieldsByName_new h hseen behind
        rw [hstep]
        exact ih hrest (by omega) hnodup

/-- A row with a repeated field is refused for such a field, whatever values it has. -/
theorem fieldsByName_repeated (h : Row '\x7d' (IsMemberFrom IsSource) first members text)
    (behind : Text) (hclock : text.length < clock) (hseen : seen.Nodup)
    (hrepeated : ¬ (seen ++ members.reduceOption).Nodup) :
    ∃ field fault, 2 ≤ (seen ++ members.reduceOption).count field ∧
      fieldsByName clock first seen target (text ++ behind) = .error fault ∧
      fault.cause = .duplicateField field.name := by
  induction members generalizing first text clock seen target with
  | nil => exact absurd (by simpa using hseen) hrepeated
  | cons member members ih =>
    cases clock with
    | zero => cases hclock
    | succ clock =>
      cases member with
      | none =>
        obtain ⟨rest, hrest, hlength, hstep⟩ := fieldsByName_other h behind
        rw [hstep]
        exact ih hrest (by omega) hseen hrepeated
      | some field =>
        rw [List.reduceOption_cons_of_some] at hrepeated ⊢
        have hperm : (seen ++ field :: members.reduceOption).Perm
            (field :: (seen ++ members.reduceOption)) := List.perm_middle
        by_cases hmem : field ∈ seen
        · obtain ⟨fault, hread, hcause⟩ := fieldsByName_again h hmem behind
          refine ⟨field, fault, ?_, hread, hcause⟩
          have hpos := List.count_pos_iff.2 (List.mem_append_left members.reduceOption hmem)
          rw [hperm.count_eq, List.count_cons_self]
          omega
        · obtain ⟨source, rest, -, hrest, hlength, hstep⟩ := fieldsByName_new h hmem behind
          have hlt : rest.length < clock := by omega
          rw [hperm.nodup_iff] at hrepeated
          rw [hstep]
          obtain ⟨other, fault, hother, hread⟩ :=
            ih hrest hlt (List.nodup_cons.2 ⟨hmem, hseen⟩) hrepeated
          refine ⟨other, fault, ?_, hread⟩
          rwa [hperm.count_eq]

end Row

end LiteralAudit.Settings
