import LiteralAudit.Proofs.Json.Numerals

/-!
# Where values end

A reader stops where its value ends, and what is added behind the text does not change this. The
end of a string, of a list and of an object is seen in the text itself, by a quote or a bracket.
A numeral has no end of its own, so something has to stand behind it. As a text that is read as
a whole has nothing but white space behind its value, more white space may be added to it and
nothing else.
-/

namespace LiteralAudit.Json

variable {text rest : Text}

/-! ## White space -/

/-- The first token stays the first. -/
theorem skipSpace_append {c : Char} (h : skipSpace text = c :: rest) (added : Text) :
    skipSpace (text ++ added) = c :: (rest ++ added) := by
  rw [skipSpace] at h ⊢
  rw [List.dropWhile_append, h]
  rfl

/-! ## Readers that see where a value ends -/

/-- The reader sees the end of a value in the value itself: what is added behind the text is
left over. -/
def SeesEnd {α : Type} (reader : Text → Reading α) : Prop :=
  ∀ ⦃text rest : Text⦄ ⦃a : α⦄, reader text = .ok (a, rest) →
    ∀ added, reader (text ++ added) = .ok (a, rest ++ added)

/-- The reader sees the end of a value by what stands behind it, if not before. -/
def SeesEndBefore {α : Type} (reader : Text → Reading α) : Prop :=
  ∀ ⦃text rest : Text⦄ ⦃a : α⦄, reader text = .ok (a, rest) → rest ≠ [] →
    ∀ added, reader (text ++ added) = .ok (a, rest ++ added)

theorem SeesEnd.before {α : Type} {reader : Text → Reading α} (h : SeesEnd reader) :
    SeesEndBefore reader := fun _ _ _ hread _ => h hread

/-! ## Strings and characters -/

/-- One more character in front makes no difference to the end. -/
theorem prepend_eq_ok {shorter longer : Reading Text} {behind s : Text} {c : Char}
    (h : ∀ ⦃t⦄, shorter = .ok (t, rest) → longer = .ok (t, behind))
    (hread : shorter.prepend c = .ok (s, rest)) : longer.prepend c = .ok (s, behind) := by
  obtain ⟨⟨t, left⟩, hshorter, heq⟩ := exists_of_map_eq_ok hread
  cases heq
  rw [h hshorter]
  rfl

theorem seesEnd_characters : SeesEnd characters := by
  intro text rest s h added
  fun_induction characters text generalizing s with
  | case2 behind =>
    cases h
    exact characters_quote _
  | case4 letter behind c hletter _ ih =>
    exact (characters_shortEscape hletter _).trans (prepend_eq_ok ih h)
  | case8 _ _ _ _ n hunit hlow hhigh _ _ _ _ behind m hunit' hlow' _ _ ih =>
    rw [Bool.not_eq_true] at hlow
    exact (characters_pair hunit hunit' hlow hhigh hlow' _).trans (prepend_eq_ok ih h)
  | case11 _ _ _ _ behind n hunit hlow hhigh _ _ ih =>
    rw [Bool.not_eq_true] at hlow hhigh
    exact (characters_unit hunit hlow hhigh _).trans (prepend_eq_ok ih h)
  | case15 c behind hq hb hc ih =>
    rw [Bool.not_eq_true] at hc
    exact (characters_plain hq hb hc _).trans (prepend_eq_ok ih h)
  | _ => cases h

theorem seesEnd_string : SeesEnd string := by
  intro text rest s h added
  unfold string at h ⊢
  split at h
  · next tail hskip =>
    rw [skipSpace_append hskip]
    exact seesEnd_characters h added
  · cases h

theorem seesEnd_character : SeesEnd character := by
  intro text rest c h added
  unfold character at h ⊢
  split at h
  · next tail hskip =>
    rw [skipSpace_append hskip]
    obtain ⟨⟨s, behind⟩, hread, h⟩ := exists_of_bind_eq_ok h
    simp only [seesEnd_characters hread added]
    split at h
    · next heq =>
      cases heq
      cases h
      rfl
    · cases h
  · cases h

/-! ## Whole numbers -/

theorem EndsNumeral.append {behind : Text} (h : EndsNumeral behind) (hne : behind ≠ [])
    (added : Text) : EndsNumeral (behind ++ added) := by
  cases behind with
  | nil => exact absurd rfl hne
  | cons c t =>
    rintro _ _ ⟨⟩
    exact h c t rfl

/-- A whole number is read only where a numeral without a sign stands for it. -/
theorem exists_number_of_natural {k : Nat} (h : natural text = .ok (k, rest)) :
    ∃ c tail, skipSpace text = c :: tail ∧ c.isDigit ∧
      number false (c :: tail) = .ok (.natural k, rest) := by
  unfold natural at h
  simp only at h
  split at h
  · split at h
    · next hnumber =>
      -- a whole number behind a sign is negative, and so no size
      obtain ⟨hminus, -⟩ := exists_digits_of_number hnumber
      cases hminus
    all_goals cases h
  · next c tail _ hskip =>
    split at h
    · next hc =>
      split at h
      · next hnumber =>
        cases h
        exact ⟨c, tail, hskip, hc, hnumber⟩
      all_goals cases h
    · cases h
  · cases h

theorem seesEndBefore_natural : SeesEndBefore natural := by
  intro text rest k h hne added
  obtain ⟨c, tail, hskip, hc, hnumber⟩ := exists_number_of_natural h
  refine natural_of_number (skipSpace_append hskip added) hc ?_
  obtain ⟨-, hends, digits, heq, hdigits⟩ := exists_digits_of_number hnumber
  rw [← List.cons_append, heq, List.append_assoc]
  exact hdigits _ (hends.append hne added)

/-! ## Lists -/

theorem nextElement_append {first : Bool} {found : Option Text}
    (h : nextElement first text = .ok found) (added : Text) :
    nextElement first (text ++ added) = .ok (found.map (· ++ added)) := by
  unfold nextElement at h ⊢
  split at h
  · cases h
  next c tail hskip =>
  rw [skipSpace_append hskip]
  simp only
  split at h
  · next hclosing =>
    cases h
    rw [if_pos hclosing]
    rfl
  next hclosing =>
  rw [if_neg hclosing]
  split at h
  · next hfirst =>
    cases h
    rw [if_pos hfirst]
    rfl
  next hfirst =>
  rw [if_neg hfirst]
  split at h
  · next hcomma =>
    rw [if_pos hcomma]
    split at h
    · cases h
    next d behind hbehind =>
    rw [skipSpace_append hbehind]
    split at h
    · cases h
    next hd =>
    cases h
    simp only [hd, if_false]
    rfl
  · cases h

theorem endList_append (h : endList text = .ok rest) (added : Text) :
    endList (text ++ added) = .ok (rest ++ added) := by
  unfold endList at h ⊢
  split at h
  · cases h
  next c tail hskip =>
  rw [skipSpace_append hskip]
  split at h
  · next hclosing =>
    cases h
    exact if_pos hclosing
  split at h
  · split at h <;> cases h
  · cases h

/-- The elements of a list end with its bracket, however much later the clock runs out. -/
theorem elements_append {α : Type} {item : Text → Reading α} (hitem : SeesEnd item) {as : List α}
    {clock clock' : Nat} {first : Bool} (h : elements item clock first text = .ok (as, rest))
    (hclock : clock ≤ clock') (added : Text) :
    elements item clock' first (text ++ added) = .ok (as, rest ++ added) := by
  induction clock generalizing clock' first text as rest with
  | zero => cases h
  | succ clock ih =>
    cases clock' with
    | zero => cases hclock
    | succ clock' =>
      rw [elements] at h ⊢
      obtain ⟨found, hnext, h⟩ := exists_of_bind_eq_ok h
      rw [nextElement_append hnext]
      cases found with
      | none =>
        obtain ⟨behind, hend, h⟩ := exists_of_bind_eq_ok h
        cases h
        simp only [bind, Except.bind, Option.map_none, endList_append hend]
        rfl
      | some t =>
        obtain ⟨⟨a, afterItem⟩, hread, h⟩ := exists_of_bind_eq_ok h
        obtain ⟨⟨others, behind⟩, hothers, h⟩ := exists_of_bind_eq_ok h
        cases h
        simp only [bind, Except.bind, Option.map_some, hitem hread added,
          ih hothers (Nat.le_of_succ_le_succ hclock)]
        rfl

theorem seesEnd_list {α : Type} {item : Text → Reading α} (hitem : SeesEnd item) :
    SeesEnd (list item) := by
  intro text rest as h added
  unfold list at h ⊢
  split at h
  · next tail hskip =>
    rw [skipSpace_append hskip]
    have hclock : tail.length + 1 ≤ (tail ++ added).length + 1 := by simp
    exact elements_append hitem h hclock added
  · cases h

/-! ## Objects -/

theorem nextKey_append {first : Bool} {found : Option Text}
    (h : nextKey first text = .ok found) (added : Text) :
    nextKey first (text ++ added) = .ok (found.map (· ++ added)) := by
  unfold nextKey at h ⊢
  split at h
  · cases h
  next c tail hskip =>
  rw [skipSpace_append hskip]
  simp only
  split at h
  · next hclosing =>
    cases h
    rw [if_pos hclosing]
    rfl
  next hclosing =>
  rw [if_neg hclosing]
  split at h
  · next hfirst =>
    rw [if_pos hfirst]
    split at h
    · next hquote =>
      cases h
      rw [if_pos hquote]
      rfl
    · cases h
  next hfirst =>
  rw [if_neg hfirst]
  split at h
  · next hcomma =>
    rw [if_pos hcomma]
    split at h
    · cases h
    next d behind hbehind =>
    rw [skipSpace_append hbehind]
    split at h
    · next hquote =>
      cases h
      simp only [hquote, if_true]
      rfl
    split at h <;> cases h
  · cases h

theorem endObject_append (h : endObject text = .ok rest) (added : Text) :
    endObject (text ++ added) = .ok (rest ++ added) := by
  unfold endObject at h ⊢
  split at h
  · cases h
  next c tail hskip =>
  rw [skipSpace_append hskip]
  split at h
  · next hclosing =>
    cases h
    exact if_pos hclosing
  split at h <;> cases h

theorem colon_append (h : colon text = .ok rest) (added : Text) :
    colon (text ++ added) = .ok (rest ++ added) := by
  unfold colon at h ⊢
  split at h
  · cases h
  next c tail hskip =>
  rw [skipSpace_append hskip]
  split at h
  · next hcolon =>
    cases h
    exact if_pos hcolon
  · cases h

/-- The members of a table end with its bracket, however much later the clock runs out. -/
theorem members_append {entries : List (Text × Text)} {clock clock' : Nat} {first : Bool}
    (h : members clock first text = .ok (entries, rest)) (hclock : clock ≤ clock')
    (added : Text) : members clock' first (text ++ added) = .ok (entries, rest ++ added) := by
  induction clock generalizing clock' first text entries rest with
  | zero => cases h
  | succ clock ih =>
    cases clock' with
    | zero => cases hclock
    | succ clock' =>
      rw [members] at h ⊢
      obtain ⟨found, hnext, h⟩ := exists_of_bind_eq_ok h
      rw [nextKey_append hnext]
      cases found with
      | none =>
        obtain ⟨behind, hend, h⟩ := exists_of_bind_eq_ok h
        cases h
        simp only [bind, Except.bind, Option.map_none, endObject_append hend]
        rfl
      | some t =>
        obtain ⟨⟨key, afterKey⟩, hkey, h⟩ := exists_of_bind_eq_ok h
        obtain ⟨afterColon, hcolon, h⟩ := exists_of_bind_eq_ok h
        obtain ⟨⟨value, afterValue⟩, hvalue, h⟩ := exists_of_bind_eq_ok h
        obtain ⟨⟨others, behind⟩, hothers, h⟩ := exists_of_bind_eq_ok h
        cases h
        simp only [bind, Except.bind, Option.map_some, seesEnd_characters hkey added,
          colon_append hcolon, seesEnd_string hvalue added,
          ih hothers (Nat.le_of_succ_le_succ hclock)]
        rfl

theorem seesEnd_table : SeesEnd table := by
  intro text rest replacements h added
  unfold table at h ⊢
  split at h
  · next tail hskip =>
    rw [skipSpace_append hskip]
    obtain ⟨⟨entries, behind⟩, hread, heq⟩ := exists_of_map_eq_ok h
    cases heq
    have hclock : tail.length + 1 ≤ (tail ++ added).length + 1 := by simp
    simp only [members_append hread hclock added]
    rfl
  · cases h

/-! ## Values passed over -/

namespace Skim

theorem eq_nil_of_atEnd {place : Place} {stack : List Bracket} (h : atEnd place stack = .ok rest) :
    rest = [] := by
  have hinside : endInside stack = .ok rest → rest = [] := by
    intro h
    unfold endInside at h
    split at h <;> cases h
    rfl
  unfold atEnd at h
  split at h <;> first | cases h | exact hinside h

/-- Where the machine stops before the end of the text, it stops if more is added. -/
theorem run_append {place : Place} {stack : List Bracket} (h : run place stack text = .ok rest)
    (hne : rest ≠ []) (added : Text) : run place stack (text ++ added) = .ok (rest ++ added) := by
  induction text generalizing place stack with
  | nil => exact absurd (eq_nil_of_atEnd h) hne
  | cons c text ih =>
    rw [List.cons_append]
    rw [run] at h ⊢
    cases hmove : move place stack c with
    | go next inner =>
      rw [hmove] at h
      exact ih h
    | finish =>
      rw [hmove] at h
      cases h
      rfl
    | stop =>
      rw [hmove] at h
      cases h
      rfl
    | refuse cause =>
      rw [hmove] at h
      cases h
    | refuseBefore cause =>
      rw [hmove] at h
      cases h

end Skim

theorem skim_append (h : skim text = .ok rest) (hne : rest ≠ []) (added : Text) :
    skim (text ++ added) = .ok (rest ++ added) := Skim.run_append h hne added

/-! ## Whole texts -/

/-- A text that is taken is taken as a whole: with something added it is taken only if this is
white space, and then for the same. -/
def TakesWhole {ε α : Type} (reader : Text → Except ε α) : Prop :=
  ∀ ⦃text : Text⦄ ⦃a : α⦄, reader text = .ok a →
    ∀ added b, reader (text ++ added) = .ok b ↔ IsSpace added ∧ b = a

theorem SeesEnd.takesWhole {α : Type} {value : Text → Reading α} (h : SeesEnd value) :
    TakesWhole (document value) := by
  intro text a hread added b
  obtain ⟨rest, hvalue, hrest⟩ := document_eq_ok_iff.1 hread
  rw [document_eq_ok_iff, h hvalue added]
  constructor
  · rintro ⟨_, heq, hspace⟩
    cases heq
    exact ⟨(isSpace_append_iff.1 hspace).2, rfl⟩
  · rintro ⟨hadded, rfl⟩
    exact ⟨rest ++ added, rfl, hrest.append hadded⟩

/-- A text that lacks more than white space at its end is not taken. -/
theorem TakesWhole.error_of_lost {ε α : Type} {reader : Text → Except ε α}
    (h : TakesWhole reader) {front lost : Text} {a : α} (hread : reader (front ++ lost) = .ok a)
    (hlost : ¬ IsSpace lost) : ∃ fault, reader front = .error fault := by
  cases hfront : reader front with
  | error fault => exact ⟨fault, rfl⟩
  | ok b => exact absurd ((h hfront lost a).1 hread).1 hlost

end LiteralAudit.Json
