import LiteralAudit.Proofs.Json.Passed
import LiteralAudit.Proofs.Settings.RoundTrip

/-!
# Settings as a list

Settings may also be a list with the values of the fields and without their names. The reader
goes through the list and the fields side by side and takes over one field after the other, so a
list of the first values comes to the same settings as the object with these members, in whatever
order they stand. A list with more values than there are fields is refused, whatever values they
are: each value that is not refused is read to its end, and behind the last field only the closing
bracket is read.
-/

namespace LiteralAudit.Settings

open Json

variable {s target result : Settings} {fields : List Field} {first : Bool} {row rest : Text}

/-- A text that holds a list of such items and nothing else. -/
def IsListOf {α : Type} (IsItem : Text → α → Prop) (items : List α) (text : Text) : Prop :=
  ∃ before list after, IsSpace before ∧ IsSpace after ∧ IsList IsItem list items ∧
    text = before ++ (list ++ after)

/-- The first values of the settings, as a list without their names. -/
def toListText (s : Settings) (k : Nat) : Text :=
  writtenList 0 ((Field.all.take k).map fun field => field.listed s.mappings.entries s)

/-- The first fields of the settings, as an object. -/
def toObjectText (s : Settings) (k : Nat) : Text :=
  writtenObject 0 ((Field.all.take k).map fun field =>
    writtenMember field.name (field.listed s.mappings.entries s))

theorem value_list {before : Text} (hbefore : IsSpace before) (rest : Text) :
    value (before ++ '[' :: rest) = valuesInOrder Field.all true standard rest := by
  rw [value, hbefore.skipSpace_token (by decide)]
  rfl

/-! ## Values of the fields -/

/-- What stands for the value of a field can stand in a list. -/
theorem Field.IsWritten.begins {field : Field} {t : Text} (h : field.IsWritten s t) :
    BeginsElement t := by
  have hstring : ∀ {value : Text}, IsString t value → BeginsElement t :=
    fun h => (isElement_isString h).begins
  have hnumeral : ∀ n, BeginsElement (Text.ofNat n) := by
    intro n
    cases htext : Text.ofNat n with
    | nil => exact absurd htext (Text.ofNat_ne_nil n)
    | cons c rest =>
      have hmem : c ∈ Text.ofNat n := by
        rw [htext]
        exact List.mem_cons_self ..
      exact beginsElement_of_isDigit (Text.isDigit_of_mem_ofNat hmem) rest
  cases field with
  | files | excludedPrefixes =>
    obtain ⟨items, rfl, -⟩ := h
    exact ⟨'[', items, rfl, rfl, by decide⟩
  | minLength | previewLimit =>
    obtain rfl := h
    exact hnumeral _
  | mappings =>
    obtain ⟨entries, items, -, rfl, -⟩ := h
    exact ⟨'\x7b', items, rfl, rfl, by decide⟩
  | _ => exact hstring h

/-- The values of some fields are read into these fields, and the fields behind them are left as
they are. -/
theorem valuesInOrder_row (hs : s.FitsWords) (more : List Field)
    (h : Row ']' (fun t field => Field.IsWritten field s t) first fields row) (behind : Text) :
    valuesInOrder (fields ++ more) first target (row ++ behind) =
      .ok (takeOverAll fields s target, behind) := by
  induction fields generalizing first row target with
  | nil =>
    obtain ⟨hnext, hend⟩ := nextElement_close h behind
    cases more with
    | nil =>
      rw [List.append_nil, valuesInOrder, hend]
      rfl
    | cons field more =>
      rw [List.nil_append, valuesInOrder, hnext]
      simp only [bind, Except.bind, hend]
      rfl
  | cons field fields ih =>
    obtain ⟨item, rest, hitem, hrest, -, hnext⟩ :=
      nextElement_item (fun _ _ hwritten => Field.IsWritten.begins hwritten) h behind
    have hread := (hitem.readsAs hs target) [] (rest ++ behind) isSpace_nil
      (hrest.endsNumeral (.inl rfl) behind)
    rw [List.nil_append] at hread
    rw [List.cons_append, valuesInOrder, hnext]
    simp only [bind, Except.bind, hread]
    exact ih hrest

theorem ofText_list (hs : s.FitsWords) (k : Nat) {text : Text}
    (h : IsListOf (fun t field => Field.IsWritten field s t) (Field.all.take k) text) :
    ofText text = .ok (takeOverAll (Field.all.take k) s standard) := by
  obtain ⟨before, list, after, hbefore, hafter, ⟨row, rfl, hrow⟩, rfl⟩ := h
  have hread := @valuesInOrder_row s standard _ _ _ hs (Field.all.drop k) hrow after
  rw [List.take_append_drop] at hread
  refine document_eq_ok_iff.2 ⟨after, ?_, hafter⟩
  rw [List.cons_append, value_list hbefore, hread]

/-! ## Values of any type -/

/-- The text is the JSON value, and the value is any. -/
def IsAnyValue (t value : Text) : Prop := t = value ∧ IsValue value

theorem isPassedBy_into {α : Type} {reader : Text → Reading α} (h : IsPassedBy reader)
    (set : α → Settings) :
    IsPassedBy fun text => (reader text).map fun (a, rest) => (set a, rest) := by
  intro text rest s hread stack
  obtain ⟨⟨a, behind⟩, hvalue, heq⟩ := exists_of_map_eq_ok hread
  cases heq
  exact h hvalue stack

theorem Field.isPassedBy_read (field : Field) (s : Settings) : IsPassedBy (field.read s) :=
  field.read_of_types (P := @IsPassedBy) isPassedBy_into isPassedBy_string
    (isPassedBy_list isPassedBy_string) (isPassedBy_list isPassedBy_character) isPassedBy_natural
    isPassedBy_table s

/-- Where a list ends, there is no further element. -/
theorem nextElement_of_endList {text : Text} (h : endList text = .ok rest) :
    nextElement first text = .ok none := by
  unfold endList at h
  unfold nextElement
  split at h
  · cases h
  split at h
  · next hclosing => exact if_pos hclosing
  split at h
  · split at h <;> cases h
  · cases h

/-- Each value that is read takes one field. -/
theorem length_le_of_valuesInOrder {values : List Text} {behind : Text}
    (hrow : Row ']' IsAnyValue first values row)
    (h : valuesInOrder fields first target (row ++ behind) = .ok (result, rest)) :
    values.length ≤ fields.length := by
  have hbegins : ∀ t value, IsAnyValue t value → BeginsElement t := by
    rintro _ value ⟨rfl, hvalue⟩
    exact hvalue.begins
  -- along the list; a value that is not refused is read up to the row behind it
  induction values generalizing first row target fields with
  | nil => exact Nat.zero_le _
  | cons value values ih =>
    obtain ⟨item, rest', ⟨rfl, hvalue⟩, hrest, -, hnext⟩ := nextElement_item hbegins hrow behind
    cases fields with
    | nil =>
      rw [valuesInOrder] at h
      obtain ⟨after, hend, -⟩ := exists_of_bind_eq_ok h
      cases (nextElement_of_endList hend).symm.trans hnext
    | cons field fields =>
      rw [valuesInOrder, hnext] at h
      obtain ⟨_, hfound, h⟩ := exists_of_bind_eq_ok h
      cases hfound
      obtain ⟨⟨next, after⟩, hread, h⟩ := exists_of_bind_eq_ok h
      obtain rfl := (field.isPassedBy_read target).stops hvalue
        (hrest.endsNumeral (.inl rfl) behind) hread
      exact Nat.succ_le_succ (ih hrest h)

/-! ## Lists and objects -/

/-- In which order fields are taken over makes no difference. -/
theorem takeOverAll_congr {fields other : List Field}
    (h : ∀ field, field ∈ fields ↔ field ∈ other) (source target : Settings) :
    takeOverAll fields source target = takeOverAll other source target := by
  apply eq_of_agrees
  intro field
  have hfields := agrees_takeOverAll fields field source target
  have hother := agrees_takeOverAll other field source target
  simp only [h field] at hfields
  cases field <;> exact Eq.trans hfields (Eq.symm hother)

theorem ofText_object_of_perm (hs : s.FitsWords) {members : List (Option Field)} {text : Text}
    (h : IsObjectOf (fun field => field.IsWritten s) members text) (hfields : fields.Nodup)
    (hperm : members.Perm (fields.map some)) :
    ofText text = .ok (takeOverAll fields s standard) := by
  have hreduced : members.reduceOption.Perm fields := by
    have hfiltered := hperm.filterMap id
    rwa [List.filterMap_map, Function.id_comp, List.filterMap_some] at hfiltered
  rw [ofText_of_nodup hs h (hreduced.nodup_iff.2 hfields)]
  exact congrArg _ (takeOverAll_congr (fun _ => hreduced.mem_iff) s standard)

theorem isListOf_toListText (s : Settings) (k : Nat) :
    IsListOf (fun t field => Field.IsWritten field s t) (Field.all.take k) (s.toListText k) := by
  have hlist : IsList (fun t field => Field.IsWritten field s t) (s.toListText k)
      (Field.all.take k) := isList_written 0 fun field _ => field.isWritten_listed (.refl _)
  exact ⟨[], _, [], isSpace_nil, isSpace_nil, hlist, (List.append_nil _).symm⟩

/-- A list of the first values of settings is read as the object with these fields is: both come
to settings that have these fields from them, and the others as they are in the standard settings.
This is so of the texts that are written and of any other ones, with the members of the object in
any order. And a list of more than ten values is refused, whatever values they are. -/
theorem ofText_listed :
    (∀ s : Settings, s.FitsWords → ∀ k, ∃ read,
      (∀ field : Field, field.Agrees read (if field ∈ Field.all.take k then s else standard)) ∧
      ofText (s.toListText k) = .ok read ∧ ofText (s.toObjectText k) = .ok read ∧
      (∀ text, IsListOf (fun t field => Field.IsWritten field s t) (Field.all.take k) text →
        ofText text = .ok read) ∧
      ∀ members text, IsObjectOf (fun field => field.IsWritten s) members text →
        members.Perm ((Field.all.take k).map some) → ofText text = .ok read) ∧
    ∀ values text, IsListOf IsAnyValue values text → 10 < values.length →
      ∃ fault, ofText text = .error fault := by
  constructor
  · intro s hs k
    have hnodup : (Field.all.take k).Nodup :=
      List.Nodup.sublist (List.take_sublist _ _) (by decide)
    refine ⟨takeOverAll (Field.all.take k) s standard, ?_, ?_, ?_, ?_, ?_⟩
    · exact fun field => agrees_takeOverAll _ field s standard
    · exact ofText_list hs k (isListOf_toListText s k)
    · exact ofText_object_of_perm hs (isObjectOf_written (.refl _) _) hnodup (.refl _)
    · exact fun text hlist => ofText_list hs k hlist
    · exact fun members text hobject => ofText_object_of_perm hs hobject hnodup
  · rintro values text ⟨before, list, after, hbefore, -, ⟨row, rfl, hrow⟩, rfl⟩ hlength
    cases hread : ofText (before ++ ('[' :: row ++ after)) with
    | error fault => exact ⟨fault, rfl⟩
    | ok result =>
      obtain ⟨rest, hvalue, -⟩ := document_eq_ok_iff.1 hread
      rw [List.cons_append, value_list hbefore] at hvalue
      exact absurd (length_le_of_valuesInOrder hrow hvalue) (Nat.not_le.2 hlength)

/-- One value for each field, and a further one. -/
def elevenValues : List Text :=
  ["\"\"", "[]", "\"\"", "\"\"", "\"\"", "2", "[]", "5", "\"\"", "\x7b\x7d", "null"].map
    String.toList

theorem isValue_of_mem_elevenValues : ∀ value ∈ elevenValues, IsValue value := by
  have hstring : IsValue "\"\"".toList := .string .nil
  have hlist : IsValue "[]".toList := .bracket (b := .list) (.empty isSpace_nil)
  have hobject : IsValue "\x7b\x7d".toList := .bracket (b := .object) (.empty isSpace_nil)
  have hnull : IsValue "null".toList := .word (by decide)
  have hnumeral : ∀ {c : Char}, c.isDigit → c ≠ '0' → IsValue [c] := by
    intro c hc hzero
    have hwhole : IsWhole [c] := .digits hc hzero (List.forall_mem_nil _)
    exact .magnitude (.parts hwhole .none .none)
  simp only [elevenValues, List.map_cons, List.map_nil, List.forall_mem_cons]
  exact ⟨hstring, hlist, hstring, hstring, hstring, hnumeral rfl (by decide), hlist,
    hnumeral rfl (by decide), hstring, hobject, hnull, List.forall_mem_nil _⟩

/-- The name alone is read from a list as from an object, and the eleventh value is one too
many. -/
theorem ofText_listed_accentedSettings :
    accentedSettings.FitsWords ∧
    ofText (accentedSettings.toListText 1) = .ok { standard with appName := ['é'] } ∧
    ofText (accentedSettings.toObjectText 1) = .ok { standard with appName := ['é'] } ∧
    ∃ fault, ofText (writtenList 0 elevenValues) = .error fault := by
  have hfits : accentedSettings.FitsWords := by decide
  have heleven : IsListOf IsAnyValue elevenValues (writtenList 0 elevenValues) := by
    have hlist : IsList IsAnyValue (writtenList 0 (elevenValues.map id)) elevenValues :=
      isList_written 0 fun value hvalue => ⟨rfl, isValue_of_mem_elevenValues value hvalue⟩
    rw [List.map_id] at hlist
    exact ⟨[], _, [], isSpace_nil, isSpace_nil, hlist, (List.append_nil _).symm⟩
  obtain ⟨read, hagrees, hlist, hobject, -⟩ := ofText_listed.1 accentedSettings hfits 1
  have heq : read = { standard with appName := ['é'] } := by
    apply eq_of_agrees
    intro field
    exact (hagrees field).trans (by cases field <;> rfl)
  rw [heq] at hlist hobject
  exact ⟨hfits, hlist, hobject, ofText_listed.2 _ _ heleven (by decide)⟩

end LiteralAudit.Settings
