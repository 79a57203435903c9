import LiteralAudit.Styled

/-!
# Taking the styles out

A reader who does not know styles drops every span from an escape character to the next
`m`. Between two pieces of a report such a reader is never inside a span, so what is left of
a report is put together from what is left of its pieces.
-/

namespace LiteralAudit

/-- What is left of a text, within a span or outside. -/
def Text.unstyledFrom : Bool → Text → Text
  | _, [] => []
  | true, c :: rest => unstyledFrom (c ≠ 'm') rest
  | false, c :: rest =>
    if c = '\x1b' then unstyledFrom true rest else c :: unstyledFrom false rest

/-- The text without its spans from an escape character to the next `m`. -/
def Text.unstyled (t : Text) : Text := unstyledFrom false t

/-- A text is plain if nothing in it begins a span. -/
def Text.IsPlain (t : Text) : Prop := '\x1b' ∉ t

instance (t : Text) : Decidable t.IsPlain := inferInstanceAs (Decidable ('\x1b' ∉ t))

namespace Text

theorem unstyled_nil : unstyled [] = [] := rfl

theorem isPlain_cons {c : Char} {t : Text} : IsPlain (c :: t) ↔ c ≠ '\x1b' ∧ t.IsPlain := by
  simp [IsPlain, eq_comm]

@[simp] theorem isPlain_append {a b : Text} : IsPlain (a ++ b) ↔ a.IsPlain ∧ b.IsPlain := by
  simp [IsPlain]

@[simp] theorem isPlain_line {t : Text} : (line t).IsPlain ↔ t.IsPlain := by
  simp [line, IsPlain]

theorem isPlain_ofNat (n : Nat) : (ofNat n).IsPlain := by
  intro h
  have hdigit := isDigit_of_mem_ofNat h
  revert hdigit
  decide

/-- In front of anything else a styled text leaves a plain one. The text behind is part of
the statement, so that the styled one has to close its spans. -/
def Leaves (a b : Text) : Prop := ∀ rest, unstyled (a ++ rest) = b ++ unstyled rest

theorem Leaves.eq {a b : Text} (h : Leaves a b) : a.unstyled = b := by
  have hall := h []
  rwa [List.append_nil, unstyled_nil, List.append_nil] at hall

theorem Leaves.nil : Leaves [] [] := fun _ => rfl

theorem Leaves.append {a b a' b' : Text} (h : Leaves a b) (h' : Leaves a' b') :
    Leaves (a ++ a') (b ++ b') := by
  intro rest
  rw [List.append_assoc, h, h', List.append_assoc]

theorem Leaves.of_isPlain {t : Text} (h : t.IsPlain) : Leaves t t := by
  intro rest
  induction t with
  | nil => rfl
  | cons c t ih =>
    obtain ⟨hc, ht⟩ := isPlain_cons.1 h
    show unstyledFrom false (c :: (t ++ rest)) = _
    rw [unstyledFrom, if_neg hc]
    exact congrArg _ (ih ht)

theorem Leaves.line {a b : Text} (h : Leaves a b) : Leaves (line a) (line b) :=
  h.append (of_isPlain (by decide))

theorem Leaves.flatMap {α : Type} {f g : α → Text} {l : List α}
    (h : ∀ a ∈ l, Leaves (f a) (g a)) : Leaves (l.flatMap f) (l.flatMap g) := by
  induction l with
  | nil => exact .nil
  | cons a l ih =>
    rw [List.flatMap_cons, List.flatMap_cons]
    exact (h a (List.mem_cons_self ..)).append (ih fun b hb => h b (List.mem_cons_of_mem _ hb))

/-- A span goes on to its first `m`. -/
theorem unstyledFrom_true_append {body : Text} (h : 'm' ∉ body) (rest : Text) :
    unstyledFrom true (body ++ 'm' :: rest) = unstyled rest := by
  induction body with
  | nil => rfl
  | cons c body ih =>
    have hc : c ≠ 'm' := fun heq => h (heq ▸ List.mem_cons_self ..)
    have hbody : 'm' ∉ body := fun hmem => h (List.mem_cons_of_mem _ hmem)
    rw [List.cons_append, unstyledFrom, decide_eq_true hc]
    exact ih hbody

theorem Leaves.span {body : Text} (h : 'm' ∉ body) : Leaves ('\x1b' :: (body ++ ['m'])) [] := by
  intro rest
  show unstyledFrom false ('\x1b' :: (body ++ ['m'] ++ rest)) = _
  rw [unstyledFrom, if_pos rfl, List.append_assoc]
  exact unstyledFrom_true_append h rest

end Text

namespace Style

theorem not_mem_code (style : Style) : 'm' ∉ style.code := by
  cases style <;> decide

theorem not_mem_codes (styles : List Style) :
    'm' ∉ List.intercalate [';'] (styles.map code) := by
  induction styles with
  | nil => simp
  | cons style styles ih =>
    have hstyle := not_mem_code style
    cases styles with
    | nil => simpa using hstyle
    | cons next styles =>
      rw [List.map_cons] at ih
      rw [List.map_cons, List.map_cons, List.intercalate_cons_cons]
      simp [hstyle, ih]

theorem leaves_opening (styles : List Style) : Text.Leaves (opening styles) [] := by
  have hbody : 'm' ∉ '[' :: List.intercalate [';'] (styles.map code) := by
    simp [not_mem_codes styles]
  exact Text.Leaves.span hbody

theorem leaves_closing : Text.Leaves closing [] := fun _ => rfl

/-- Nothing is switched on again in a plain text. -/
theorem reopen_of_isPlain (sequence : Text) {t : Text} (h : t.IsPlain) :
    reopen sequence t = t := by
  induction t with
  | nil => rw [reopen]
  | cons c t ih =>
    obtain ⟨hc, ht⟩ := Text.isPlain_cons.1 h
    rw [reopen, ih ht]
    rintro rest rfl
    exact absurd rfl hc

end Style

/-- A plain text in any styles leaves itself, with colour and without. -/
theorem Text.Leaves.styled (colour : Bool) (styles : List Style) {t : Text} (h : t.IsPlain) :
    Leaves (styled colour styles t) (styled false styles t) := by
  cases colour with
  | false => exact of_isPlain h
  | true =>
    have hsequences := ((Style.leaves_opening styles).append (of_isPlain h)).append
      Style.leaves_closing
    rw [List.nil_append, List.append_nil] at hsequences
    rwa [LiteralAudit.styled, if_pos rfl, Style.reopen_of_isPlain _ h]

example : Text.unstyled (styled true [.bold, .red] "[0m".toList) = "[0m".toList := by decide

end LiteralAudit
