import LiteralAudit.Proofs.Json.Values

/-!
# Lists and objects read back

The items of a list or of an object stand in a row up to the closing bracket, with
commas between them and any white space around the tokens. One step of a reader takes
an item from the front of a row and leaves a shorter row, so the clock of the reader
lasts until the bracket. Written lists and objects are such rows.
-/

namespace LiteralAudit.Json

/-- What stands between an opening bracket and its closing one, or between an item,
which is then not the first, and the closing bracket. -/
inductive Row {α : Type} (closing : Char) (IsItem : Text → α → Prop) :
    Bool → List α → Text → Prop where
  | close {first : Bool} {space : Text} :
      IsSpace space → Row closing IsItem first [] (space ++ [closing])
  | first {space item rest : Text} {a : α} {as : List α} :
      IsSpace space → IsItem item a → Row closing IsItem false as rest →
      Row closing IsItem true (a :: as) (space ++ (item ++ rest))
  | next {before after item rest : Text} {a : α} {as : List α} :
      IsSpace before → IsSpace after → IsItem item a → Row closing IsItem false as rest →
      Row closing IsItem false (a :: as) (before ++ ',' :: (after ++ (item ++ rest)))

/-- A row behind an item does not go on with a numeral. -/
theorem Row.endsNumeral {α : Type} {closing : Char} {IsItem : Text → α → Prop}
    {as : List α} {text : Text} (h : Row closing IsItem false as text)
    (hclosing : closing = ']' ∨ closing = '\x7d') (behind : Text) :
    EndsNumeral (text ++ behind) := by
  cases h with
  | close hspace =>
    rw [List.append_assoc]
    refine hspace.endsNumeral_append ?_
    rcases hclosing with rfl | rfl <;>
      exact endsNumeral_cons (by decide) (by decide) (by decide) (by decide) _
  | next hbefore _ _ _ =>
    rw [List.append_assoc]
    exact hbefore.endsNumeral_append
      (endsNumeral_cons (by decide) (by decide) (by decide) (by decide) _)

/-- What the items of a row are may be said in another way. -/
theorem Row.map {α β : Type} {closing : Char} {IsItem : Text → α → Prop}
    {IsOther : Text → β → Prop} {f : α → β} (hitem : ∀ t a, IsItem t a → IsOther t (f a))
    {first : Bool} {as : List α} {text : Text} (h : Row closing IsItem first as text) :
    Row closing IsOther first (as.map f) text := by
  induction h with
  | close hspace => exact .close hspace
  | first hspace ha _ ih => exact .first hspace (hitem _ _ ha) ih
  | next hbefore hafter ha _ ih => exact .next hbefore hafter (hitem _ _ ha) ih

/-! ## Lists -/

/-- An element of a list: a value that begins with a token, which is not the closing
bracket. -/
structure IsElement {α : Type} (reader : Text → Reading α) (t : Text) (a : α) : Prop where
  reads : Reads reader t a
  begins : ∃ c rest, t = c :: rest ∧ Skim.isSpace c = false ∧ c ≠ ']'

section Lists

variable {α : Type} {reader : Text → Reading α} {IsItem : Text → α → Prop} {first : Bool}
  {as : List α} {a : α} {text : Text}

theorem nextElement_close (h : Row ']' IsItem first [] text) (behind : Text) :
    nextElement first (text ++ behind) = .ok none ∧ endList (text ++ behind) = .ok behind := by
  cases h with
  | close hspace =>
    rw [List.append_assoc, nextElement, endList, List.singleton_append,
      hspace.skipSpace_token (by decide)]
    exact ⟨rfl, rfl⟩

/-- One step in a list: the next element is found, and the row behind it is shorter. -/
theorem nextElement_item (hbegins : ∀ t b, IsItem t b → BeginsElement t)
    (h : Row ']' IsItem first (a :: as) text) (behind : Text) :
    ∃ item rest, IsItem item a ∧ Row ']' IsItem false as rest ∧
      rest.length < text.length ∧
      nextElement first (text ++ behind) = .ok (some (item ++ (rest ++ behind))) := by
  cases h with
  | @first space item rest _ _ hspace hitem hrest =>
    obtain ⟨c, t, rfl, hc, hclosing⟩ := hbegins item a hitem
    refine ⟨_, _, hitem, hrest, ?_, ?_⟩
    · simp only [List.length_append, List.length_cons]
      omega
    · rw [List.append_assoc, List.append_assoc, nextElement, List.cons_append,
        hspace.skipSpace_token hc]
      simp only [hclosing, if_false, if_true]
  | @next before after item rest _ _ hbefore hafter hitem hrest =>
    obtain ⟨c, t, rfl, hc, hclosing⟩ := hbegins item a hitem
    refine ⟨_, _, hitem, hrest, ?_, ?_⟩
    · simp only [List.length_append, List.length_cons]
      omega
    · rw [List.append_assoc, nextElement, List.cons_append, hbefore.skipSpace_token (by decide)]
      have hcomma : (',' : Char) ≠ ']' := by decide
      simp only [hcomma, Bool.false_eq_true, if_false, if_true, List.append_assoc]
      rw [List.cons_append, hafter.skipSpace_token hc]
      simp only [hclosing, if_false]

/-- A row of elements is read up to the closing bracket. -/
theorem elements_row (h : Row ']' (IsElement reader) first as text) (behind : Text)
    {clock : Nat} (hclock : text.length < clock) :
    elements reader clock first (text ++ behind) = .ok (as, behind) := by
  induction as generalizing first text clock with
  | nil =>
    obtain ⟨hnext, hend⟩ := nextElement_close h behind
    cases clock with
    | zero => cases hclock
    | succ clock =>
      rw [elements, hnext]
      simp only [bind, Except.bind, hend]
      rfl
  | cons a as ih =>
    obtain ⟨item, rest, hitem, hrest, hlength, hnext⟩ :=
      nextElement_item (fun _ _ helement => helement.begins) h behind
    cases clock with
    | zero => cases hclock
    | succ clock =>
      have hread := hitem.reads [] (rest ++ behind) isSpace_nil (hrest.endsNumeral (.inl rfl) _)
      have hclock : rest.length < clock := by omega
      have htail := ih hrest hclock
      rw [List.nil_append] at hread
      rw [elements, hnext]
      simp only [bind, Except.bind, hread, htail]
      rfl

/-- A list of such items. -/
def IsList (IsItem : Text → α → Prop) (t : Text) (as : List α) : Prop :=
  ∃ row, t = '[' :: row ∧ Row ']' IsItem true as row

theorem IsList.reads (h : IsList IsItem text as)
    (hitem : ∀ t a, IsItem t a → IsElement reader t a) : Reads (list reader) text as := by
  obtain ⟨row, rfl, hrow⟩ := h
  have hrow := hrow.map (f := id) hitem
  rw [List.map_id] at hrow
  intro space behind hspace _
  rw [list, List.cons_append, hspace.skipSpace_token (by decide)]
  have hclock : row.length < (row ++ behind).length + 1 := by
    simp only [List.length_append]
    omega
  exact elements_row hrow behind hclock

end Lists

/-! ## Objects -/

/-- A member of an object: a key, in any spelling, and such a value. -/
def IsMember (key : Text) (IsOne : Text → Prop) (t : Text) : Prop :=
  ∃ body before after value, IsSpelling body key ∧ IsSpace before ∧ IsSpace after ∧
    IsOne value ∧ t = '"' :: (body ++ '"' :: (before ++ ':' :: (after ++ value)))

theorem IsSpace.colon_append {space : Text} (h : IsSpace space) (rest : Text) :
    colon (space ++ ':' :: rest) = .ok rest := by
  rw [colon, h.skipSpace_token (by decide)]
  rfl

theorem IsMember.imp {IsOne IsOther : Text → Prop} {key t : Text} (h : IsMember key IsOne t)
    (himp : ∀ value, IsOne value → IsOther value) : IsMember key IsOther t := by
  obtain ⟨body, before, after, value, hkey, hbefore, hafter, hvalue, rfl⟩ := h
  exact ⟨body, before, after, value, hkey, hbefore, hafter, himp value hvalue, rfl⟩

theorem IsMember.begins {IsOne : Text → Prop} {key t : Text} (h : IsMember key IsOne t) :
    ∃ item, t = '"' :: item := by
  obtain ⟨body, before, after, value, -, -, -, -, rfl⟩ := h
  exact ⟨_, rfl⟩

/-- A member is read in three steps: its key, the colon and its value. -/
theorem IsMember.steps {α : Type} {reader : Text → Reading α} {key item : Text} {a : α}
    (h : IsMember key (Reads reader · a) ('"' :: item)) {behind : Text}
    (hbehind : EndsNumeral behind) :
    ∃ afterKey afterColon, characters (item ++ behind) = .ok (key, afterKey) ∧
      colon afterKey = .ok afterColon ∧ reader afterColon = .ok (a, behind) := by
  obtain ⟨body, before, after, value, hkey, hbefore, hafter, hvalue, heq⟩ := h
  obtain rfl := (List.cons.inj heq).2
  refine ⟨before ++ ':' :: (after ++ (value ++ behind)), after ++ (value ++ behind), ?_, ?_, ?_⟩
  · have hread := hkey.characters_append (before ++ ':' :: (after ++ (value ++ behind)))
    simpa using hread
  · exact hbefore.colon_append _
  · exact hvalue after behind hafter hbehind

section Objects

variable {α : Type} {IsItem : Text → α → Prop} {first : Bool} {as : List α} {a : α}
  {text : Text}

theorem nextKey_close (h : Row '\x7d' IsItem first [] text) (behind : Text) :
    nextKey first (text ++ behind) = .ok none ∧ endObject (text ++ behind) = .ok behind := by
  cases h with
  | close hspace =>
    rw [List.append_assoc, nextKey, endObject, List.singleton_append,
      hspace.skipSpace_token (by decide)]
    exact ⟨rfl, rfl⟩

/-- One step in an object: the key of the next member is found behind its opening
quote, and the row behind the member is shorter. -/
theorem nextKey_item (hquote : ∀ t b, IsItem t b → ∃ item, t = '"' :: item)
    (h : Row '\x7d' IsItem first (a :: as) text) (behind : Text) :
    ∃ item rest, IsItem ('"' :: item) a ∧ Row '\x7d' IsItem false as rest ∧
      rest.length < text.length ∧
      nextKey first (text ++ behind) = .ok (some (item ++ (rest ++ behind))) := by
  cases h with
  | @first space item rest _ _ hspace hitem hrest =>
    obtain ⟨t, rfl⟩ := hquote item a hitem
    refine ⟨_, _, hitem, hrest, ?_, ?_⟩
    · simp only [List.length_append, List.length_cons]
      omega
    · rw [List.append_assoc, List.append_assoc, nextKey, List.cons_append,
        hspace.skipSpace_token (by decide)]
      rfl
  | @next before after item rest _ _ hbefore hafter hitem hrest =>
    obtain ⟨t, rfl⟩ := hquote item a hitem
    refine ⟨_, _, hitem, hrest, ?_, ?_⟩
    · simp only [List.length_append, List.length_cons]
      omega
    · have hcomma : (',' : Char) ≠ '\x7d' := by decide
      rw [List.append_assoc, nextKey, List.cons_append, hbefore.skipSpace_token (by decide)]
      simp only [hcomma, Bool.false_eq_true, if_false, if_true, List.append_assoc]
      rw [List.cons_append, hafter.skipSpace_token (by decide)]
      rfl

/-- A member of a table of texts. -/
def IsEntry (t : Text) (entry : Text × Text) : Prop :=
  IsMember entry.1 (IsString · entry.2) t

/-- A row of entries is read up to the closing bracket. -/
theorem members_row {entries : List (Text × Text)} (h : Row '\x7d' IsEntry first entries text)
    (behind : Text) {clock : Nat} (hclock : text.length < clock) :
    members clock first (text ++ behind) = .ok (entries, behind) := by
  induction entries generalizing first text clock with
  | nil =>
    obtain ⟨hnext, hend⟩ := nextKey_close h behind
    cases clock with
    | zero => cases hclock
    | succ clock =>
      rw [members, hnext]
      simp only [bind, Except.bind, hend]
      rfl
  | cons entry entries ih =>
    obtain ⟨item, rest, hitem, hrest, hlength, hnext⟩ :=
      nextKey_item (fun _ _ hmember => hmember.begins) h behind
    obtain ⟨afterKey, afterColon, hkey, hcolon, hvalue⟩ :=
      (hitem.imp fun _ hvalue => hvalue.reads).steps (hrest.endsNumeral (.inr rfl) behind)
    cases clock with
    | zero => cases hclock
    | succ clock =>
      have hclock : rest.length < clock := by omega
      have htail := ih hrest hclock
      rw [members, hnext]
      simp only [bind, Except.bind, hkey, hcolon, hvalue, htail]
      rfl

/-- An object whose values are strings. Of the entries with one key the last counts. -/
def IsTable (t : Text) (table : Replacements) : Prop :=
  ∃ entries row, .ofList entries = table ∧ t = '\x7b' :: row ∧ Row '\x7d' IsEntry true entries row

theorem IsTable.reads {replacements : Replacements} (h : IsTable text replacements) :
    Reads table text replacements := by
  obtain ⟨entries, row, rfl, rfl, hrow⟩ := h
  intro space behind hspace _
  rw [table, List.cons_append, hspace.skipSpace_token (by decide)]
  have hclock : row.length < (row ++ behind).length + 1 := by
    simp only [List.length_append]
    omega
  simp only [members_row hrow behind hclock]
  rfl

end Objects

/-! ## Written lists and objects -/

theorem isSpace_indentation (depth : Nat) : IsSpace (indentation depth) := by
  intro c hc
  obtain rfl := List.eq_of_mem_replicate hc
  rfl

theorem isSpace_newline_append {space : Text} (h : IsSpace space) : IsSpace ('\n' :: space) := by
  intro c hc
  rcases List.mem_cons.1 hc with rfl | hc
  · rfl
  · exact h c hc

/-- The pieces behind the first one each follow a separator. -/
theorem intercalate_cons {α : Type} (separator x : List α) (xs : List (List α)) :
    List.intercalate separator (x :: xs) = x ++ xs.flatMap (separator ++ ·) := by
  induction xs generalizing x with
  | nil => simp
  | cons y xs ih => simp [List.intercalate_cons_cons, ih]

section Written

variable {α : Type} {IsItem : Text → α → Prop} {as : List α} {written : α → Text}

/-- The items of a written block behind the first one. -/
theorem row_of_written_rest (closing : Char) (depth : Nat)
    (h : ∀ a ∈ as, IsItem (written a) a) :
    Row closing IsItem false as
      (as.flatMap (fun a => [',', '\n'] ++ (indentation (depth + 1) ++ written a)) ++
        ('\n' :: indentation depth ++ [closing])) := by
  induction as with
  | nil => exact .close (isSpace_newline_append (isSpace_indentation depth))
  | cons a as ih =>
    have hrest := ih fun b hb => h b (List.mem_cons_of_mem _ hb)
    have hrow := Row.next isSpace_nil
      (isSpace_newline_append (isSpace_indentation (depth + 1)))
      (h a (List.mem_cons_self ..)) hrest
    simpa using hrow

/-- A written block is its opening bracket and a row of its items. -/
theorem exists_row_of_writtenBlock (opening closing : Char) (depth : Nat)
    (h : ∀ a ∈ as, IsItem (written a) a) :
    ∃ text, writtenBlock opening closing depth (as.map written) = opening :: text ∧
      Row closing IsItem true as text := by
  cases as with
  | nil => exact ⟨[closing], rfl, .close isSpace_nil⟩
  | cons a as =>
    have hrest := row_of_written_rest closing depth fun b hb => h b (List.mem_cons_of_mem _ hb)
    have hrow := Row.first (isSpace_newline_append (isSpace_indentation (depth + 1)))
      (h a (List.mem_cons_self ..)) hrest
    refine ⟨_, ?_, hrow⟩
    simp [writtenBlock, intercalate_cons, List.flatMap_map]

theorem isList_written (depth : Nat) (h : ∀ a ∈ as, IsItem (written a) a) :
    IsList IsItem (writtenList depth (as.map written)) as :=
  exists_row_of_writtenBlock '[' ']' depth h

theorem isMember_written {IsOne : Text → Prop} {value : Text} (key : Text) (h : IsOne value) :
    IsMember key IsOne (writtenMember key value) := by
  refine ⟨_, [], [' '], value, isSpelling_written key, isSpace_nil, by decide, h, ?_⟩
  simp [writtenMember, writtenString]

theorem exists_row_of_writtenEntries (depth : Nat) (entries : List (Text × Text)) :
    ∃ row, writtenObject depth (entries.map fun entry =>
        writtenMember entry.1 (writtenString entry.2)) = '\x7b' :: row ∧
      Row '\x7d' IsEntry true entries row := by
  have hentries : ∀ entry ∈ entries,
      IsEntry (writtenMember entry.1 (writtenString entry.2)) entry := by
    intro entry _
    exact isMember_written entry.1 (isString_written entry.2)
  exact exists_row_of_writtenBlock '\x7b' '\x7d' depth hentries

/-- The listed entries come back as a table. -/
theorem isTable_written (depth : Nat) (entries : List (Text × Text)) :
    IsTable
      (writtenObject depth (entries.map fun entry =>
        writtenMember entry.1 (writtenString entry.2)))
      (.ofList entries) := by
  obtain ⟨row, heq, hrow⟩ := exists_row_of_writtenEntries depth entries
  exact ⟨entries, row, rfl, heq, hrow⟩

end Written

end LiteralAudit.Json
