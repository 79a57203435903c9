import LiteralAudit.Literal

/-!
# The pass, one character at a time

The pass over a text is a machine with three kinds of modes. A character moves it
to the next mode and may complete an interior, which is handed out. What is handed
out for a text stays when more text follows: the pass goes on from the mode that
it has reached.
-/

namespace LiteralAudit.Literal

namespace Mode

/-- The mode behind a character. -/
def next : Mode → Char → Mode
  | .outside, c => if c = '"' then .inside [] else .outside
  | .inside read, c =>
    if c = '"' then .outside
    else if c = '\\' then .escaped (c :: read)
    else .inside (c :: read)
  | .escaped read, c => if c = '\n' then .outside else .inside (c :: read)

/-- The interior that a character completes: only a quote inside of a literal
completes one. -/
def completed? : Mode → Char → Option Text
  | .inside read, c => if c = '"' then some read.reverse else none
  | _, _ => none

/-- One step of the machine, with the interiors handed out so far. -/
def step (state : Mode × List Text) (c : Char) : Mode × List Text :=
  (state.1.next c, state.2 ++ (state.1.completed? c).toList)

/-- The mode behind a text. -/
def after (m : Mode) (text : Text) : Mode := text.foldl next m

@[simp] theorem after_nil (m : Mode) : m.after [] = m := rfl

@[simp] theorem after_cons (m : Mode) (c : Char) (text : Text) :
    m.after (c :: text) = (m.next c).after text := rfl

theorem after_append (m : Mode) (a b : Text) : m.after (a ++ b) = (m.after a).after b :=
  List.foldl_append

end Mode

/-! ## Steps and runs -/

/-- One step of the pass. -/
theorem interiorsFrom_cons (m : Mode) (c : Char) (rest : Text) :
    interiorsFrom m (c :: rest) =
      (m.completed? c).toList ++ interiorsFrom (m.next c) rest := by
  cases m with
  | outside =>
    by_cases hq : c = '"' <;> simp [interiorsFrom, Mode.next, Mode.completed?, hq]
  | inside read =>
    by_cases hq : c = '"'
    · simp [interiorsFrom, Mode.next, Mode.completed?, hq]
    · by_cases hb : c = '\\' <;>
        simp [interiorsFrom, Mode.next, Mode.completed?, hq, hb]
  | escaped read =>
    by_cases hn : c = '\n' <;> simp [interiorsFrom, Mode.next, Mode.completed?, hn]

/-- The machine's run over a text, step by step. -/
theorem foldl_step (text : Text) (m : Mode) (found : List Text) :
    text.foldl Mode.step (m, found) = (m.after text, found ++ interiorsFrom m text) := by
  induction text generalizing m found with
  | nil => cases m <;> simp [interiorsFrom]
  | cons c text ih =>
    simp only [List.foldl_cons, Mode.step, ih, Mode.after_cons, interiorsFrom_cons,
      List.append_assoc]

/-- A run over two texts, from the one into the other. -/
theorem interiorsFrom_append (m : Mode) (a b : Text) :
    interiorsFrom m (a ++ b) = interiorsFrom m a ++ interiorsFrom (m.after a) b := by
  induction a generalizing m with
  | nil => cases m <;> rfl
  | cons c a ih =>
    rw [List.cons_append, interiorsFrom_cons, interiorsFrom_cons, ih, List.append_assoc]
    rfl

/-! ## Outside of literals -/

theorem interiors_quote (rest : Text) :
    interiors ('"' :: rest) = interiorsFrom (.inside []) rest := by
  simp [interiors, interiorsFrom]

theorem interiors_cons_of_ne {c : Char} (hq : c ≠ '"') (rest : Text) :
    interiors (c :: rest) = interiors rest := by
  simp [interiors, interiorsFrom, hq]

/-- The pass stays outside in a text without quotes. -/
theorem interiors_append_of_not_mem {gap : Text} (h : '"' ∉ gap) (rest : Text) :
    interiors (gap ++ rest) = interiors rest := by
  induction gap with
  | nil => rfl
  | cons c gap ih =>
    simp only [List.mem_cons, not_or] at h
    rw [List.cons_append, interiors_cons_of_ne (Ne.symm h.1), ih h.2]

/-! ## Inside of literals -/

theorem interiorsFrom_inside_plain {c : Char} (hq : c ≠ '"') (hb : c ≠ '\\')
    (read rest : Text) :
    interiorsFrom (.inside read) (c :: rest) = interiorsFrom (.inside (c :: read)) rest := by
  simp [interiorsFrom, hq, hb]

theorem interiorsFrom_inside_escape {c : Char} (hn : c ≠ '\n') (read rest : Text) :
    interiorsFrom (.inside read) ('\\' :: c :: rest) =
      interiorsFrom (.inside (c :: '\\' :: read)) rest := by
  simp [interiorsFrom, hn]

/-- The pass collects an interior and hands it out at the quote behind it. -/
theorem IsInterior.interiorsFrom_inside {interior : Text} (h : IsInterior interior)
    (read rest : Text) :
    interiorsFrom (.inside read) (interior ++ '"' :: rest) =
      (read.reverse ++ interior) :: interiors rest := by
  induction h generalizing read with
  | nil => simp [interiorsFrom, interiors]
  | plain hq hb _ ih => simp [interiorsFrom_inside_plain hq hb, ih]
  | escape hn _ ih => simp [interiorsFrom_inside_escape hn, ih]

/-- Behind an interior a quote leads outside. -/
theorem IsInterior.after_inside {interior : Text} (h : IsInterior interior) (read : Text) :
    (Mode.inside read).after (interior ++ ['"']) = .outside := by
  induction h generalizing read with
  | nil => simp [Mode.next]
  | plain hq hb _ ih => simp [Mode.next, hq, hb, ih]
  | escape hn _ ih => simp [Mode.next, hn, ih]

/-- A literal in front of a text is found first, whatever the text is. -/
theorem IsInterior.interiors_ofInterior_append {interior : Text} (h : IsInterior interior)
    (rest : Text) : interiors (ofInterior interior ++ rest) = interior :: interiors rest := by
  have hpass := h.interiorsFrom_inside [] rest
  simpa [ofInterior, interiors_quote] using hpass

end LiteralAudit.Literal
