import LiteralAudit.Proofs.Audit.Sources
import LiteralAudit.Proofs.Json.Extent
import LiteralAudit.Proofs.Settings.Members

/-!
# Files that are cut short or joined

Settings end with their closing bracket, as tables of replacements do, and a file has to hold
one of them and nothing else. So a file that is accepted is still accepted with more white space
at its end, and for the same; with anything else at its end it is refused, and so is each part
of it from the front that lacks more than white space.
-/

namespace LiteralAudit.Settings

open Json

variable {text rest : Text} {s result : Settings} {first : Bool}

/-! ## Fields -/

theorem seesEndBefore_into {α : Type} {reader : Text → Reading α} (h : SeesEndBefore reader)
    (set : α → Settings) :
    SeesEndBefore fun text => (reader text).map fun (a, rest) => (set a, rest) := by
  intro text rest s hread hne added
  obtain ⟨⟨a, behind⟩, hvalue, heq⟩ := exists_of_map_eq_ok hread
  cases heq
  simp only [h hvalue hne added]
  rfl

theorem Field.seesEndBefore_read (field : Field) (s : Settings) : SeesEndBefore (field.read s) :=
  field.read_of_types (P := @SeesEndBefore) seesEndBefore_into seesEnd_string.before
    (seesEnd_list seesEnd_string).before (seesEnd_list seesEnd_character).before
    seesEndBefore_natural seesEnd_table.before s

/-! ## Settings as a list -/

theorem ne_nil_of_valuesInOrder {fields : List Field}
    (h : valuesInOrder fields first s text = .ok (result, rest)) : text ≠ [] := by
  rintro rfl
  cases fields <;> cases h

theorem valuesInOrder_append {fields : List Field}
    (h : valuesInOrder fields first s text = .ok (result, rest)) (added : Text) :
    valuesInOrder fields first s (text ++ added) = .ok (result, rest ++ added) := by
  induction fields generalizing first s text with
  | nil =>
    rw [valuesInOrder] at h ⊢
    obtain ⟨behind, hend, h⟩ := exists_of_bind_eq_ok h
    cases h
    rw [endList_append hend]
    rfl
  | cons field fields ih =>
    rw [valuesInOrder] at h ⊢
    obtain ⟨found, hnext, h⟩ := exists_of_bind_eq_ok h
    rw [nextElement_append hnext]
    cases found with
    | none =>
      obtain ⟨behind, hend, h⟩ := exists_of_bind_eq_ok h
      cases h
      simp only [bind, Except.bind, Option.map_none, endList_append hend]
      rfl
    | some t =>
      obtain ⟨⟨next, behind⟩, hread, h⟩ := exists_of_bind_eq_ok h
      have hread' := field.seesEndBefore_read s hread (ne_nil_of_valuesInOrder h) added
      simp only [bind, Except.bind, Option.map_some, hread']
      exact ih h

/-! ## Settings as an object -/

theorem ne_nil_of_fieldsByName {clock : Nat} {seen : List Field}
    (h : fieldsByName clock first seen s text = .ok (result, rest)) : text ≠ [] := by
  rintro rfl
  cases clock <;> cases h

/-- The members of settings end with the bracket, however much later the clock runs out. -/
theorem fieldsByName_append {clock clock' : Nat} {seen : List Field}
    (h : fieldsByName clock first seen s text = .ok (result, rest)) (hclock : clock ≤ clock')
    (added : Text) :
    fieldsByName clock' first seen s (text ++ added) = .ok (result, rest ++ added) := by
  induction clock generalizing clock' first seen s text with
  | zero => cases h
  | succ clock ih =>
    cases clock' with
    | zero => cases hclock
    | succ clock' =>
      have hclock := Nat.le_of_succ_le_succ hclock
      rw [fieldsByName] at h ⊢
      obtain ⟨found, hnext, h⟩ := exists_of_bind_eq_ok h
      rw [nextKey_append hnext]
      cases found with
      | none =>
        obtain ⟨behind, hend, h⟩ := exists_of_bind_eq_ok h
        cases h
        simp only [bind, Except.bind, Option.map_none, endObject_append hend]
        rfl
      | some t =>
        obtain ⟨⟨key, afterKey⟩, hkey, h⟩ := exists_of_bind_eq_ok h
        simp only [bind, Except.bind, Option.map_some, seesEnd_characters hkey added]
        simp only at h
        split at h
        · obtain ⟨afterColon, hcolon, h⟩ := exists_of_bind_eq_ok h
          obtain ⟨behind, hskim, h⟩ := exists_of_bind_eq_ok h
          simp only [colon_append hcolon, skim_append hskim (ne_nil_of_fieldsByName h)]
          exact ih h hclock
        next field _ =>
        split at h
        · cases h
        next hseen =>
        obtain ⟨afterColon, hcolon, h⟩ := exists_of_bind_eq_ok h
        obtain ⟨⟨next, behind⟩, hread, h⟩ := exists_of_bind_eq_ok h
        have hread' := field.seesEndBefore_read s hread (ne_nil_of_fieldsByName h) added
        simp only [hseen, if_false, colon_append hcolon, hread']
        exact ih h hclock

/-! ## Whole texts -/

theorem seesEnd_value : SeesEnd value := by
  intro text rest s h added
  unfold value at h ⊢
  split at h
  · next tail hskip =>
    rw [skipSpace_append hskip]
    exact valuesInOrder_append h added
  · next tail hskip =>
    rw [skipSpace_append hskip]
    have hclock : tail.length + 1 ≤ (tail ++ added).length + 1 := by simp
    exact fieldsByName_append h hclock added
  · cases h

theorem takesWhole_ofText : TakesWhole ofText := seesEnd_value.takesWhole

/-- The order of the keys makes no difference to what is accepted. -/
theorem check_eq_ok_congr {order other : KeyOrder} {path : Path} {t : Text} {s : Settings} :
    check order path t = .ok s ↔ check other path t = .ok s := by
  rw [check_eq_ok_iff, check_eq_ok_iff, ← obeys_iff, ← obeys_iff]

/-- The rules are about the settings, so they make no difference. -/
theorem takesWhole_check (order : KeyOrder) (path : Path) : TakesWhole (check order path) := by
  intro text s h added t
  obtain ⟨hread, hrules⟩ := check_eq_ok_iff.1 h
  rw [check_eq_ok_iff, takesWhole_ofText hread]
  constructor
  · rintro ⟨hwhole, -⟩
    exact hwhole
  · rintro ⟨hspace, rfl⟩
    exact ⟨⟨hspace, rfl⟩, hrules⟩

end LiteralAudit.Settings

namespace LiteralAudit.Replacements

open Json

theorem takesWhole_ofText : TakesWhole ofText := seesEnd_table.takesWhole

theorem takesWhole_check (path : Path) : TakesWhole (check path) := by
  intro text table h added other
  rw [check_eq_ok_iff] at h ⊢
  exact takesWhole_ofText h added other

end LiteralAudit.Replacements

/-! ## Files -/

namespace LiteralAudit

open Json

/-- A file that is accepted is accepted as a whole: on a machine where it has more text at its
end, it is accepted only if this is white space, and then for the same; and where it lacks some
that is more than white space, it is refused. -/
def AcceptsWhole {ε α : Type} (path : Path) (load : StateM World (Except ε α)) : Prop :=
  ∀ ⦃w w' : World⦄ ⦃text added : Text⦄, w.tree.read w.here path = .ok (encodeText text) →
    w'.tree.read w'.here path = .ok (encodeText (text ++ added)) →
    (∀ a, load.run w = (.ok a, w) →
      ∀ b, load.run w' = (.ok b, w') ↔ IsSpace added ∧ b = a) ∧
    (∀ b, load.run w' = (.ok b, w') → ¬ IsSpace added →
      ∃ fault, load.run w = (.error fault, w))

/-- Loading a file accepts it as a whole if a reader of its text does that accepts the same. -/
theorem Json.TakesWhole.acceptsWhole {ε α : Type} {path : Path}
    {load : StateM World (Except ε α)} {reader : Text → Except ε α} (h : TakesWhole reader)
    (hload : ∀ w t, w.text path = .ok t →
      ∃ answer, load.run w = (answer, w) ∧ ∀ a, answer = .ok a ↔ reader t = .ok a) :
    AcceptsWhole path load := by
  have haccepts : ∀ {w : World} {t : Text}, w.tree.read w.here path = .ok (encodeText t) →
      (∀ a, load.run w = (.ok a, w) ↔ reader t = .ok a) ∧
      ∀ fault, reader t = .error fault → ∃ trouble, load.run w = (.error trouble, w) := by
    intro w t hfile
    obtain ⟨answer, hrun, hanswer⟩ := hload w t (World.text_of_read hfile)
    refine ⟨fun a => ?_, fun fault hfault => ?_⟩
    · rw [hrun, ← hanswer]
      exact ⟨congrArg Prod.fst, fun h => by rw [h]⟩
    · cases answer with
      | error trouble => exact ⟨trouble, hrun⟩
      | ok a =>
        rw [(hanswer a).1 rfl] at hfault
        cases hfault
  intro w w' text added hfile hfile'
  obtain ⟨hload, hrefuse⟩ := haccepts hfile
  obtain ⟨hload', -⟩ := haccepts hfile'
  simp only [hload, hload']
  constructor
  · intro a hread
    exact h hread added
  · intro b hread hlost
    obtain ⟨fault, hfault⟩ := h.error_of_lost hread hlost
    exact hrefuse fault hfault

/-- Settings and tables of replacements are taken as whole texts from whole files: to one that is
accepted nothing but white space can be added, which makes no difference, and nothing but white
space can be left out at its end. -/
theorem load_acceptsWhole (path : Path) :
    TakesWhole Settings.ofText ∧ TakesWhole Replacements.ofText ∧
      AcceptsWhole path (Settings.load World.host path) ∧
      AcceptsWhole path (Replacements.load World.host path) := by
  refine ⟨Settings.takesWhole_ofText, Replacements.takesWhole_ofText,
    (Settings.takesWhole_check .ascending path).acceptsWhole ?_,
    (Replacements.takesWhole_check path).acceptsWhole ?_⟩
  · intro w t htext
    refine ⟨Settings.check w.order path t, ?_, fun s => Settings.check_eq_ok_congr⟩
    rw [Settings.run_load, Settings.loadOn, htext]
  · intro w t htext
    refine ⟨Replacements.check path t, ?_, fun table => Iff.rfl⟩
    rw [Replacements.run_load, Replacements.loadOn, htext]

/-- Settings with a member that is passed over: brackets in brackets, and one in a string. -/
def nestedText : Text :=
  "\x7b\"skipped\": [1e5, \x7b\"a\": \"\x7d\"\x7d, []], \"previewLimit\": 3\x7d".toList

/-- It is accepted with white space behind it, but neither with one more bracket nor without its
last one. -/
theorem load_acceptsWhole_nestedText :
    (Settings.load World.host (.of "c")).run (World.holding nestedText) =
      (.ok { Settings.standard with previewLimit := 3 }, World.holding nestedText) ∧
    (Settings.load World.host (.of "c")).run (World.holding (nestedText ++ [' ', '\n'])) =
      (.ok { Settings.standard with previewLimit := 3 },
        World.holding (nestedText ++ [' ', '\n'])) ∧
    (∀ s, Settings.ofText (nestedText ++ ['\x7d']) ≠ .ok s) ∧
    ∃ trouble, (Settings.load World.host (.of "c")).run (World.holding nestedText.dropLast) =
      (.error trouble, World.holding nestedText.dropLast) := by
  have hread : Settings.ofText nestedText = .ok { Settings.standard with previewLimit := 3 } := by
    decide +kernel
  have hload : (Settings.load World.host (.of "c")).run (World.holding nestedText) =
      (.ok { Settings.standard with previewLimit := 3 }, World.holding nestedText) := by
    have htext := World.text_of_read (World.read_holding nestedText)
    have hcheck : Settings.loadOn (World.holding nestedText) (.of "c") =
        .ok { Settings.standard with previewLimit := 3 } :=
      Settings.loadOn_eq_ok_iff.2 ⟨_, htext, hread, by decide +kernel⟩
    rw [Settings.run_load, hcheck]
  obtain ⟨hwhole, -, hfiles, -⟩ := load_acceptsWhole (.of "c")
  refine ⟨hload, ?_, ?_, ?_⟩
  · obtain ⟨hadded, -⟩ := @hfiles _ _ nestedText [' ', '\n'] (World.read_holding _)
      (World.read_holding _)
    exact (hadded _ hload _).2 ⟨by decide, rfl⟩
  · intro s hs
    obtain ⟨hspace, -⟩ := (hwhole hread _ s).1 hs
    exact absurd hspace (by decide)
  · obtain ⟨-, hlost⟩ := @hfiles _ _ nestedText.dropLast ['\x7d'] (World.read_holding _)
      (World.read_holding nestedText)
    exact hlost _ hload (by decide)

end LiteralAudit
