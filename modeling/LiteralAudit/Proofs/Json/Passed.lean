import LiteralAudit.Proofs.Json.Extent
import LiteralAudit.Proofs.Json.Skim

/-!
# Values read and passed over

Where a reader finds a value of its type, the value could just as well have been passed over: the
machine makes the same way through the text and comes out at the same place. So a reader in front
of a JSON value either refuses it or reads it to its end. It never stops inside the value, and it
never goes on behind it.
-/

namespace LiteralAudit.Json

open Skim

variable {stack : List Bracket} {text rest : Text} {first : Bool}

/-- What the reader takes for a value, the machine passes over. -/
def IsPassedBy {α : Type} (reader : Text → Reading α) : Prop :=
  ∀ ⦃text rest : Text⦄ ⦃a : α⦄, reader text = .ok (a, rest) →
    ∀ stack, run .value stack text = run .closed stack rest

/-- In front of a JSON value the reader stops at its end, if it does not refuse it. -/
theorem IsPassedBy.stops {α : Type} {reader : Text → Reading α} (h : IsPassedBy reader)
    {value behind : Text} {a : α} (hvalue : IsValue value) (hbehind : EndsNumeral behind)
    (hread : reader (value ++ behind) = .ok (a, rest)) : rest = behind := by
  have hskim : skim (value ++ behind) = .ok behind := hvalue.skim isSpace_nil hbehind
  rw [skim, h hread [], run_closed_nil] at hskim
  exact Except.ok.inj hskim

/-- The machine skips the same white space as the readers. -/
theorem run_skipSpace {place : Skim.Place}
    (h : ∀ c, isSpace c → move place stack c = .go place stack) (text : Text) :
    run place stack text = run place stack (skipSpace text) := by
  have hspace : IsSpace (text.takeWhile isSpace) := fun c hc => List.mem_takeWhile_imp hc
  have hrun := run_space h hspace (skipSpace text)
  rwa [skipSpace, List.takeWhile_append_dropWhile] at hrun

/-! ## Strings and characters -/

/-- A character is put in front of what was read. -/
theorem exists_of_prepend_eq_ok {reading : Reading Text} {c : Char} {s : Text}
    (h : reading.prepend c = .ok (s, rest)) : ∃ t, reading = .ok (t, rest) := by
  obtain ⟨⟨t, left⟩, hread, heq⟩ := exists_of_map_eq_ok h
  cases heq
  exact ⟨t, hread⟩

theorem run_characters (isKey : Bool) {s : Text} (h : characters text = .ok (s, rest)) :
    run (.string isKey) stack text = run (behindString isKey) stack rest := by
  have hunit : ∀ {a b c d : Char} {n : Nat}, hexUnit? a b c d = some n → ∀ t,
      run (.string isKey) stack ('\\' :: 'u' :: a :: b :: c :: d :: t) =
        run (.string isKey) stack t := by
    intro a b c d n h t
    rw [run_go (.escape isKey) rfl, run_go (.hex isKey 0) rfl, run_hexDigits isKey h]
  -- along the reader; each character that it prepends is one way through the string
  fun_induction characters text generalizing s with
  | case2 behind =>
    cases h
    exact run_quote isKey _
  | case4 letter behind c hletter _ ih =>
    obtain ⟨t, hread⟩ := exists_of_prepend_eq_ok h
    have hmove : move (.escape isKey) stack letter = .go (.string isKey) stack :=
      if_pos (by rw [hletter]; rfl)
    rw [run_go (.escape isKey) rfl, run_go _ hmove]
    exact ih hread
  | case8 _ _ _ _ n hhigh _ _ _ _ _ _ behind m hlow _ _ _ ih =>
    obtain ⟨t, hread⟩ := exists_of_prepend_eq_ok h
    rw [hunit hhigh, hunit hlow]
    exact ih hread
  | case11 _ _ _ _ behind n hdigits _ _ _ _ ih =>
    obtain ⟨t, hread⟩ := exists_of_prepend_eq_ok h
    rw [hunit hdigits]
    exact ih hread
  | case15 c behind hq hb hc ih =>
    obtain ⟨t, hread⟩ := exists_of_prepend_eq_ok h
    have hmove : move (.string isKey) stack c = .go (.string isKey) stack := by
      simp [move, hq, hb, hc]
    rw [run_go _ hmove]
    exact ih hread
  | _ => cases h

theorem isPassedBy_string : IsPassedBy string := by
  intro text rest s h stack
  rw [run_skipSpace fun _ hc => move_value_space hc]
  unfold string at h
  split at h
  · next tail hskip =>
    rw [hskip, run_go (.string false) rfl]
    exact run_characters false h
  · cases h

theorem isPassedBy_character : IsPassedBy character := by
  intro text rest c h stack
  rw [run_skipSpace fun _ hc => move_value_space hc]
  unfold character at h
  split at h
  · next tail hskip =>
    obtain ⟨⟨s, behind⟩, hread, h⟩ := exists_of_bind_eq_ok h
    rw [hskip, run_go (.string false) rfl]
    split at h
    · next heq =>
      cases heq
      cases h
      exact run_characters false hread
    · cases h
  · cases h

/-! ## Whole numbers -/

/-- What is read to its end as a whole number is its digits. -/
theorem isWhole_of_number {digits : Text} {k : Nat}
    (h : number false digits = .ok (.natural k, [])) : IsWhole digits := by
  unfold number at h
  split at h
  · cases h
  · split at h
    · obtain ⟨-, -, -, rfl, -⟩ := afterWhole_eq_natural h
      exact .zero
    · cases h
  · next c tail hzero =>
    split at h
    · next hc =>
      obtain ⟨-, -, -, hnone, -⟩ := afterWhole_eq_natural h
      have hdigits := List.dropWhile_eq_nil_iff.1 hnone
      exact .digits hc hzero fun d hd => hdigits d (List.mem_cons_of_mem _ hd)
    · cases h

theorem isPassedBy_natural : IsPassedBy natural := by
  intro text rest k h stack
  obtain ⟨c, tail, hskip, -, hnumber⟩ := exists_number_of_natural h
  obtain ⟨-, hends, digits, heq, hdigits⟩ := exists_digits_of_number hnumber
  have hwhole : IsWhole digits := isWhole_of_number (by simpa using hdigits [] (by rintro _ _ ⟨⟩))
  have hvalue : IsValue (digits ++ ([] ++ [])) := .magnitude (.parts hwhole .none .none)
  have hpasses : Passes .value digits := by simpa using passes hvalue
  rw [run_skipSpace (fun _ hc => move_value_space hc), hskip, heq]
  exact hpasses stack rest hends

/-! ## Lists -/

/-- Where the machine is behind an opening bracket, or behind a value in a bracket. -/
def bracketPlace (first : Bool) : Skim.Place := if first then .opened else .closed

theorem move_bracketPlace_space (b : Bracket) {c : Char} (h : isSpace c) :
    move (bracketPlace first) (b :: stack) c = .go (bracketPlace first) (b :: stack) := by
  cases first with
  | true => exact move_opened_space h
  | false => exact move_closed_space b h

theorem move_bracketPlace_closing (b : Bracket) :
    move (bracketPlace first) (b :: stack) b.closing = ended stack := by
  cases first with
  | true => exact move_opened_closing b
  | false => exact move_closed_closing b

/-- The first character of a text that was skipped to is no white space. -/
theorem isSpace_of_skipSpace {c : Char} (h : skipSpace text = c :: rest) : isSpace c = false := by
  have hhead := List.head?_dropWhile_not isSpace text
  rw [skipSpace] at h
  rw [h] at hhead
  simpa using hhead

/-- The machine comes to the next element of a list as the reader does. -/
theorem run_nextElement {t : Text} (h : nextElement first text = .ok (some t)) :
    run (bracketPlace first) (.list :: stack) text = run .value (.list :: stack) t := by
  rw [run_skipSpace fun _ hc => move_bracketPlace_space .list hc]
  unfold nextElement at h
  split at h
  · cases h
  next c tail hskip =>
  rw [hskip]
  split at h
  · cases h
  next hclosing =>
  split at h
  · next hfirst =>
    cases h
    have hmove : move .opened (.list :: stack) c = move .value (.list :: stack) c := by
      simp [move, isSpace_of_skipSpace hskip, hclosing]
    rw [hfirst, bracketPlace, if_pos rfl, run, run, hmove]
    rfl
  next hfirst =>
  split at h
  · next hcomma =>
    split at h
    · cases h
    next d behind hbehind =>
    split at h
    · cases h
    cases h
    rw [hcomma, bracketPlace, if_neg hfirst, run_go .value rfl,
      run_skipSpace (fun _ hc => move_value_space hc), hbehind]
  · cases h

theorem run_endList (h : endList text = .ok rest) :
    run (bracketPlace first) (.list :: stack) text = run .closed stack rest := by
  rw [run_skipSpace fun _ hc => move_bracketPlace_space .list hc]
  unfold endList at h
  split at h
  · cases h
  next c tail hskip =>
  split at h
  · next hclosing =>
    cases h
    rw [hskip, hclosing]
    exact run_ended (move_bracketPlace_closing .list) rest
  split at h
  · split at h <;> cases h
  · cases h

theorem run_elements {α : Type} {item : Text → Reading α} (hitem : IsPassedBy item) {as : List α}
    {clock : Nat} (h : elements item clock first text = .ok (as, rest)) :
    run (bracketPlace first) (.list :: stack) text = run .closed stack rest := by
  induction clock generalizing first text as with
  | zero => cases h
  | succ clock ih =>
    rw [elements] at h
    obtain ⟨found, hnext, h⟩ := exists_of_bind_eq_ok h
    cases found with
    | none =>
      obtain ⟨behind, hend, h⟩ := exists_of_bind_eq_ok h
      cases h
      exact run_endList hend
    | some t =>
      obtain ⟨⟨a, afterItem⟩, hread, h⟩ := exists_of_bind_eq_ok h
      obtain ⟨⟨others, behind⟩, hothers, h⟩ := exists_of_bind_eq_ok h
      cases h
      rw [run_nextElement hnext, hitem hread]
      exact ih hothers

theorem isPassedBy_list {α : Type} {item : Text → Reading α} (hitem : IsPassedBy item) :
    IsPassedBy (list item) := by
  intro text rest as h stack
  rw [run_skipSpace fun _ hc => move_value_space hc]
  unfold list at h
  split at h
  · next tail hskip =>
    have hopen : run .value stack ('[' :: tail) = run .opened (.list :: stack) tail :=
      run_go _ rfl _
    rw [hskip, hopen]
    exact run_elements hitem h
  · cases h

/-! ## Objects -/

/-- The machine comes to the next key of an object as the reader does. -/
theorem run_nextKey {t : Text} (h : nextKey first text = .ok (some t)) :
    run (bracketPlace first) (.object :: stack) text =
      run (.string true) (.object :: stack) t := by
  rw [run_skipSpace fun _ hc => move_bracketPlace_space .object hc]
  unfold nextKey at h
  split at h
  · cases h
  next c tail hskip =>
  rw [hskip]
  split at h
  · cases h
  split at h
  · next hfirst =>
    split at h
    · next hquote =>
      cases h
      rw [hfirst, hquote]
      exact run_go _ rfl _
    · cases h
  next hfirst =>
  split at h
  · next hcomma =>
    split at h
    · cases h
    next d behind hbehind =>
    split at h
    · next hquote =>
      cases h
      rw [hcomma, bracketPlace, if_neg hfirst, run_go .key rfl,
        run_skipSpace (fun _ hc => move_key_space hc), hbehind, hquote]
      exact run_go _ rfl _
    split at h <;> cases h
  · cases h

theorem run_endObject (h : endObject text = .ok rest) :
    run (bracketPlace first) (.object :: stack) text = run .closed stack rest := by
  rw [run_skipSpace fun _ hc => move_bracketPlace_space .object hc]
  unfold endObject at h
  split at h
  · cases h
  next c tail hskip =>
  split at h
  · next hclosing =>
    cases h
    rw [hskip, hclosing]
    exact run_ended (move_bracketPlace_closing .object) rest
  split at h <;> cases h

theorem run_colon (h : colon text = .ok rest) : run .colon stack text = run .value stack rest := by
  rw [run_skipSpace fun _ hc => move_colon_space hc]
  unfold colon at h
  split at h
  · cases h
  next c tail hskip =>
  split at h
  · next hcolon =>
    cases h
    rw [hskip, hcolon]
    exact run_go _ rfl _
  · cases h

theorem run_members {entries : List (Text × Text)} {clock : Nat}
    (h : members clock first text = .ok (entries, rest)) :
    run (bracketPlace first) (.object :: stack) text = run .closed stack rest := by
  induction clock generalizing first text entries with
  | zero => cases h
  | succ clock ih =>
    rw [members] at h
    obtain ⟨found, hnext, h⟩ := exists_of_bind_eq_ok h
    cases found with
    | none =>
      obtain ⟨behind, hend, h⟩ := exists_of_bind_eq_ok h
      cases h
      exact run_endObject hend
    | some t =>
      obtain ⟨⟨key, afterKey⟩, hkey, h⟩ := exists_of_bind_eq_ok h
      obtain ⟨afterColon, hcolon, h⟩ := exists_of_bind_eq_ok h
      obtain ⟨⟨value, afterValue⟩, hvalue, h⟩ := exists_of_bind_eq_ok h
      obtain ⟨⟨others, behind⟩, hothers, h⟩ := exists_of_bind_eq_ok h
      cases h
      rw [run_nextKey hnext, run_characters true hkey, behindString, if_pos rfl, run_colon hcolon,
        isPassedBy_string hvalue]
      exact ih hothers

theorem isPassedBy_table : IsPassedBy table := by
  intro text rest replacements h stack
  rw [run_skipSpace fun _ hc => move_value_space hc]
  unfold table at h
  split at h
  · next tail hskip =>
    obtain ⟨⟨entries, behind⟩, hread, heq⟩ := exists_of_map_eq_ok h
    cases heq
    have hopen : run .value stack ('\x7b' :: tail) = run .opened (.object :: stack) tail :=
      run_go _ rfl _
    rw [hskip, hopen]
    exact run_members hread
  · cases h

end LiteralAudit.Json
