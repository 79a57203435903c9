import LiteralAudit.Proofs.Finding.Exact
import LiteralAudit.Proofs.Path.Letters

/-!
# Reports can be read back

Nothing but strays of paths is lost in a report without colour. A path and an expression end at
the next line end, a count at the next space, and a literal at its first quote that is not
escaped, so even a literal that looks like a part of a report is told from one. What follows a
section begins with a line end, and what follows a suggestion with the space of the next one or
with that line end; so the lists can be told from what is behind them, too.
-/

namespace LiteralAudit

/-! ## Texts from which a value can be told -/

/-- What is told of values of a kind can be made out from what is written of them, whatever is
behind it, as long as that is allowed. -/
def Text.Tells {α β : Type} (write : α → Text) (told : α → β) (IsOne : α → Prop)
    (Behind : Text → Prop) : Prop :=
  ∀ ⦃a b : α⦄, IsOne a → IsOne b → ∀ ⦃s t : Text⦄, Behind s → Behind t →
    write a ++ s = write b ++ t → told a = told b ∧ s = t

namespace Text

/-- A text ends at the first place of a character that it does not hold. -/
theorem append_cons_inj {c : Char} {a b s t : Text} (ha : c ∉ a) (hb : c ∉ b)
    (h : a ++ c :: s = b ++ c :: t) : a = b ∧ s = t := by
  induction a generalizing b with
  | nil =>
    cases b with
    | nil => exact ⟨rfl, (List.cons.inj h).2⟩
    | cons d b =>
      obtain ⟨rfl, -⟩ := List.cons.inj h
      exact absurd (List.mem_cons_self ..) hb
  | cons d a ih =>
    cases b with
    | nil =>
      obtain ⟨rfl, -⟩ := List.cons.inj h
      exact absurd (List.mem_cons_self ..) ha
    | cons e b =>
      obtain ⟨rfl, htail⟩ := List.cons.inj h
      obtain ⟨rfl, hrest⟩ := ih (fun hmem => ha (List.mem_cons_of_mem _ hmem))
        (fun hmem => hb (List.mem_cons_of_mem _ hmem)) htail
      exact ⟨rfl, hrest⟩

theorem line_append_inj {a b s t : Text} (ha : '\n' ∉ a) (hb : '\n' ∉ b)
    (h : line a ++ s = line b ++ t) : a = b ∧ s = t := by
  simp only [line, List.append_assoc, List.singleton_append] at h
  exact append_cons_inj ha hb h

theorem ofNat_injective : Function.Injective ofNat := by
  intro n m h
  have hvalue : ∀ n, Nat.ofDigitChars 10 (ofNat n) 0 = n := fun _ =>
    Nat.ofDigitChars_ten_toDigits
  rw [← hvalue n, h, hvalue m]

/-- A numeral ends at a space. -/
theorem ofNat_append_inj {n m : Nat} {s t : Text}
    (h : ofNat n ++ ' ' :: s = ofNat m ++ ' ' :: t) : n = m ∧ s = t := by
  have hspace : ∀ n, ' ' ∉ ofNat n := by
    intro n hmem
    exact absurd (isDigit_of_mem_ofNat hmem) (by decide)
  obtain ⟨hnumeral, hrest⟩ := append_cons_inj (hspace n) (hspace m) h
  exact ⟨ofNat_injective hnumeral, hrest⟩

/-- If what is behind a list cannot be the beginning of one more value, a list of values can
be told, one value after the other. -/
theorem Tells.flatMap {α β : Type} {write : α → Text} {told : α → β} {IsOne : α → Prop}
    {Behind End : Text → Prop} (h : Tells write told IsOne Behind)
    (hvalue : ∀ a, IsOne a → ∀ s, Behind (write a ++ s) ∧ ¬ End (write a ++ s))
    (hend : ∀ t, End t → Behind t) :
    Tells (fun l : List α => l.flatMap write) (List.map told) (fun l => ∀ a ∈ l, IsOne a) End := by
  intro l m hl hm s t hs ht heq
  have hbehind : ∀ l : List α, (∀ a ∈ l, IsOne a) → ∀ t, End t →
      Behind (l.flatMap write ++ t) := by
    intro l hl t ht
    cases l with
    | nil => exact hend t ht
    | cons a l =>
      rw [List.flatMap_cons, List.append_assoc]
      exact (hvalue a (hl a (List.mem_cons_self ..)) _).1
  induction l generalizing m with
  | nil =>
    cases m with
    | nil => exact ⟨rfl, heq⟩
    | cons b m =>
      simp only [List.flatMap_cons, List.append_assoc, List.flatMap_nil, List.nil_append] at heq
      rw [heq] at hs
      exact absurd hs (hvalue b (hm b (List.mem_cons_self ..)) _).2
  | cons a l ih =>
    have ha := hl a (List.mem_cons_self ..)
    have hl' : ∀ b ∈ l, IsOne b := fun b hb => hl b (List.mem_cons_of_mem _ hb)
    cases m with
    | nil =>
      simp only [List.flatMap_cons, List.append_assoc, List.flatMap_nil, List.nil_append] at heq
      rw [← heq] at ht
      exact absurd ht (hvalue a ha _).2
    | cons b m =>
      have hb := hm b (List.mem_cons_self ..)
      have hm' : ∀ c ∈ m, IsOne c := fun c hc => hm c (List.mem_cons_of_mem _ hc)
      simp only [List.flatMap_cons, List.append_assoc] at heq
      obtain ⟨hfirst, htail⟩ := h ha hb (hbehind l hl' s hs) (hbehind m hm' t ht) heq
      obtain ⟨hothers, hrest⟩ := ih hl' hm' htail
      rw [List.map_cons, List.map_cons, hfirst, hothers]
      exact ⟨rfl, hrest⟩

end Text

/-! ## Suggestions -/

/-- A suggestion whose literal is one and whose expression ends with its line. -/
structure Suggestion.IsLegible (s : Suggestion) : Prop where
  literal : ∃ interior, Literal.IsInterior interior ∧ s.literal = Literal.ofInterior interior
  expression : '\n' ∉ s.expression

theorem Wording.tells_suggestionLine :
    Text.Tells (suggestionLine false) id Suggestion.IsLegible fun _ => True := by
  rintro ⟨_, expression⟩ ⟨_, expression'⟩ ⟨⟨i, hi, rfl⟩, hline⟩ ⟨⟨j, hj, rfl⟩, hline'⟩ s t - - h
  have hstep : ∀ (i e s : Text), suggestionLine false ⟨Literal.ofInterior i, e⟩ ++ s =
      "    ".toList ++ (Literal.ofInterior i ++ (" → ".toList ++ (Text.line e ++ s))) := by
    intro i e s
    simp [suggestionLine, Text.line]
  rw [hstep, hstep] at h
  obtain ⟨rfl, htail⟩ := Literal.ofInterior_append_inj hi hj (List.append_cancel_left h)
  obtain ⟨hexpression, hrest⟩ := Text.line_append_inj hline hline' (List.append_cancel_left htail)
  exact ⟨congrArg (Suggestion.mk _) hexpression, hrest⟩

/-! ## Sections -/

/-- What is found in some text, with a path and expressions that hold no line end. -/
structure Finding.IsLegible (finding : Finding) : Prop where
  found : ∃ context path source, finding = ofText context path source
  path : Path.newline ∉ finding.path
  expressions : ∀ s ∈ finding.suggestions, '\n' ∉ s.expression

namespace Finding

/-- The finding as far as a report tells it: the path is the text that is shown of it. -/
def printed (finding : Finding) : Finding := { finding with path := .ofText finding.path.shown }

/-- A path that is a text is told as it is. -/
theorem printed_of_isText {finding : Finding} (h : finding.path.IsText) :
    finding.printed = finding := by
  obtain ⟨t, ht⟩ := h
  rw [printed, ht, Path.shown_ofText, ← ht]

theorem IsLegible.suggestions {finding : Finding} (h : finding.IsLegible) :
    ∀ s ∈ finding.suggestions, s.IsLegible := by
  intro s hs
  refine ⟨?_, h.expressions s hs⟩
  obtain ⟨context, path, source, rfl⟩ := h.found
  obtain ⟨interior, hinterior, -, heq⟩ := mem_candidates_iff.1 (literal_mem_candidates hs)
  exact ⟨interior, Literal.isInterior_of_mem_interiors source hinterior, heq⟩

/-- Without candidates there are no suggestions. -/
theorem IsLegible.suggestions_eq_nil {finding : Finding} (h : finding.IsLegible)
    (hcount : finding.candidateCount = 0) : finding.suggestions = [] := by
  obtain ⟨context, path, source, rfl⟩ := h.found
  exact ofText_suggestions_eq_nil context path source hcount

end Finding

namespace Wording

/-- What stands behind the suggestions of a section does not begin with a space. -/
def BehindSection (t : Text) : Prop := t.head? ≠ some ' '

/-- The part of a section about the candidates. -/
def counted (finding : Finding) : Text :=
  if finding.candidateCount = 0 then []
  else
    "  Found ".toList ++ (Text.ofNat finding.candidateCount ++
      ' ' :: ("potential hardcoded strings\n".toList ++
        finding.suggestions.flatMap (suggestionLine false)))

theorem fileSection_append (labels : Labels) (finding : Finding) (s : Text) :
    fileSection false labels finding ++ s =
      "\n📄 ".toList ++ (Text.line finding.path.shown ++
        (wiring false labels finding ++ (counted finding ++ s))) := by
  by_cases hcount : finding.candidateCount = 0 <;>
    simp [fileSection, counted, hcount, Text.line]

/-- The third character of what a section says about the wiring is its mark. -/
theorem getElem?_wiring_append (labels : Labels) (finding : Finding) (s : Text) :
    (wiring false labels finding ++ s)[2]? = some (if finding.wired then '✅' else '❌') := by
  cases hwired : finding.wired <;>
    simp [wiring, Finding.unwired, hwired, missingLine, Text.line, successMark, failureMark]

theorem wiring_append_inj {labels : Labels} {f g : Finding} {s t : Text}
    (h : wiring false labels f ++ s = wiring false labels g ++ t) :
    f.wired = g.wired ∧ s = t := by
  have hwired : f.wired = g.wired := by
    have hmark := congrArg (fun text : Text => text[2]?) h
    simp only [getElem?_wiring_append] at hmark
    revert hmark
    cases f.wired <;> cases g.wired <;> decide
  have hsame : wiring false labels f = wiring false labels g := by
    rw [wiring, wiring, Finding.unwired, Finding.unwired, hwired]
  rw [hsame] at h
  exact ⟨hwired, List.append_cancel_left h⟩

theorem counted_append_inj {f g : Finding} (hf : f.IsLegible) (hg : g.IsLegible) {s t : Text}
    (hs : BehindSection s) (ht : BehindSection t) (h : counted f ++ s = counted g ++ t) :
    f.candidateCount = g.candidateCount ∧ f.suggestions = g.suggestions ∧ s = t := by
  have hfound : ∀ (finding : Finding) (s : Text), finding.candidateCount ≠ 0 →
      ¬ BehindSection (counted finding ++ s) := by
    intro finding s hcount hbehind
    rw [counted, if_neg hcount] at hbehind
    exact hbehind rfl
  have hnone : ∀ finding : Finding, finding.candidateCount = 0 → counted finding = [] :=
    fun _ hcount => if_pos hcount
  by_cases hzero : f.candidateCount = 0
  · by_cases hzero' : g.candidateCount = 0
    · rw [hnone f hzero, hnone g hzero'] at h
      rw [hzero, hzero', hf.suggestions_eq_nil hzero, hg.suggestions_eq_nil hzero']
      exact ⟨rfl, rfl, h⟩
    · rw [hnone f hzero, List.nil_append] at h
      rw [h] at hs
      exact absurd hs (hfound g t hzero')
  · by_cases hzero' : g.candidateCount = 0
    · rw [hnone g hzero', List.nil_append] at h
      rw [← h] at ht
      exact absurd ht (hfound f s hzero)
    · rw [counted, counted, if_neg hzero, if_neg hzero'] at h
      simp only [List.append_assoc, List.cons_append] at h
      obtain ⟨hcount, h⟩ := Text.ofNat_append_inj (List.append_cancel_left h)
      have hline : ∀ suggestion : Suggestion, suggestion.IsLegible → ∀ s,
          True ∧ ¬ BehindSection (suggestionLine false suggestion ++ s) :=
        fun _ _ _ => ⟨trivial, fun hbehind => hbehind rfl⟩
      have hlines := tells_suggestionLine.flatMap hline fun _ _ => trivial
      obtain ⟨hsuggestions, hrest⟩ :=
        hlines hf.suggestions hg.suggestions hs ht (List.append_cancel_left h)
      rw [List.map_id, List.map_id] at hsuggestions
      exact ⟨hcount, hsuggestions, hrest⟩

theorem tells_fileSection (labels : Labels) :
    Text.Tells (fileSection false labels) Finding.printed Finding.IsLegible BehindSection := by
  intro f g hf hg s t hs ht h
  rw [fileSection_append, fileSection_append] at h
  obtain ⟨hpath, h⟩ := Text.line_append_inj (Path.newline_notMem_shown hf.path)
    (Path.newline_notMem_shown hg.path) (List.append_cancel_left h)
  obtain ⟨hwired, h⟩ := wiring_append_inj h
  obtain ⟨hcount, hsuggestions, hrest⟩ := counted_append_inj hf hg hs ht h
  rw [Finding.printed, Finding.printed, hpath, hwired, hcount, hsuggestions]
  exact ⟨rfl, hrest⟩

/-- The text of a report without colour: the heading, a section for each finding, and the
ending. -/
def report (labels : Labels) (findings : List Finding) : Text :=
  header false labels ++ findings.flatMap (fileSection false labels) ++ footer false labels

/-- What is behind the sections begins like the ending of a report. -/
def BeginsEnding (t : Text) : Prop := ∃ rest, t = '\n' :: '✅' :: rest

/-- Two reports with the same labels are the same text only if they tell the same of their
findings, in the same order, whatever the labels and the literals in the files look like. If the
paths are texts, the findings are the same then. -/
theorem eq_of_report_eq {labels : Labels} {findings findings' : List Finding}
    (hlegible : ∀ finding ∈ findings, finding.IsLegible)
    (hlegible' : ∀ finding ∈ findings', finding.IsLegible)
    (h : report labels findings = report labels findings') :
    findings.map Finding.printed = findings'.map Finding.printed ∧
      ((∀ finding ∈ findings ++ findings', finding.path.IsText) → findings = findings') := by
  have hnewline : ∀ rest, BehindSection ('\n' :: rest) := by
    intro rest hhead
    exact absurd (Option.some.inj hhead) (by decide)
  have hvalue : ∀ finding : Finding, finding.IsLegible → ∀ s,
      BehindSection (fileSection false labels finding ++ s) ∧
        ¬ BeginsEnding (fileSection false labels finding ++ s) := by
    intro finding _ s
    rw [fileSection_append]
    refine ⟨hnewline _, ?_⟩
    rintro ⟨rest, heq⟩
    exact absurd (List.cons.inj (List.cons.inj heq).2).1 (by decide)
  have hend : ∀ t, BeginsEnding t → BehindSection t := by
    rintro _ ⟨rest, rfl⟩
    exact hnewline _
  have hsections := (tells_fileSection labels).flatMap hvalue hend
  have hfooter : BeginsEnding (footer false labels) := ⟨_, rfl⟩
  rw [report, report, List.append_assoc, List.append_assoc] at h
  obtain ⟨hprinted, -⟩ :=
    hsections hlegible hlegible' hfooter hfooter (List.append_cancel_left h)
  refine ⟨hprinted, ?_⟩
  intro htexts
  have hself : ∀ l : List Finding, l ⊆ findings ++ findings' → l.map Finding.printed = l := by
    intro l hl
    refine (List.map_congr_left fun finding hmem => ?_).trans (List.map_id l)
    exact Finding.printed_of_isText (htexts finding (hl hmem))
  rw [← hself findings (List.subset_append_left _ _),
    ← hself findings' (List.subset_append_right _ _), hprinted]

/-- A literal with a line end that looks like an arrow and another section. -/
def deceptiveLiteral : Text := "\"Save\\\" → x\n\n📄 B\n  ✅ \"".toList

/-- What is found in two files that hold the literal, the second with more text around it and
with another filter and another table. -/
def deceptiveFindings : List Finding × List Finding :=
  ([.ofText ⟨[], ⟨2, ['/']⟩, 5, .ofList [(deceptiveLiteral, "y → z".toList)]⟩ (.of "A")
      deceptiveLiteral],
   [.ofText ⟨"x".toList, ⟨0, []⟩, 1,
      .ofList [(deceptiveLiteral, "y → z".toList), ("\"\"".toList, [])]⟩ (.of "A")
      ("x = \"\" + ".toList ++ deceptiveLiteral ++ " \"tail".toList)])

theorem eq_of_report_eq_deceptive :
    (∀ finding ∈ deceptiveFindings.1, finding.IsLegible) ∧
    (∀ finding ∈ deceptiveFindings.2, finding.IsLegible) ∧
    report Settings.standard.labels deceptiveFindings.1 =
      report Settings.standard.labels deceptiveFindings.2 ∧
    deceptiveFindings.1 ≠ [] ∧ deceptiveFindings.1 = deceptiveFindings.2 := by
  have hlegible : ∀ finding ∈ deceptiveFindings.1, finding.IsLegible := by
    intro finding h
    obtain rfl := List.mem_singleton.1 h
    exact ⟨⟨_, _, _, rfl⟩, by decide, by decide⟩
  have hlegible' : ∀ finding ∈ deceptiveFindings.2, finding.IsLegible := by
    intro finding h
    obtain rfl := List.mem_singleton.1 h
    exact ⟨⟨_, _, _, rfl⟩, by decide, by decide⟩
  have hreport : report Settings.standard.labels deceptiveFindings.1 =
      report Settings.standard.labels deceptiveFindings.2 := by
    decide +kernel
  have htexts : ∀ finding ∈ deceptiveFindings.1 ++ deceptiveFindings.2, finding.path.IsText := by
    intro finding h
    have hpath : finding.path = .of "A" := by
      revert finding
      decide
    exact ⟨_, hpath⟩
  obtain ⟨-, hsame⟩ := eq_of_report_eq hlegible hlegible' hreport
  exact ⟨hlegible, hlegible', hreport, List.cons_ne_nil _ _, hsame htexts⟩

/-- Nothing found in two files whose names differ in one byte, which is no character in either. -/
def strayFindings : List Finding × List Finding :=
  ([.ofText ⟨['m'], ⟨0, []⟩, 1, .empty⟩ [0x61, 0xff] []],
   [.ofText ⟨['m'], ⟨0, []⟩, 1, .empty⟩ [0x61, 0xfe] []])

/-- Strays are shown alike, so a report tells nothing of the difference. -/
theorem report_strayFindings :
    (∀ finding ∈ strayFindings.1, finding.IsLegible) ∧
    (∀ finding ∈ strayFindings.2, finding.IsLegible) ∧
    report Settings.standard.labels strayFindings.1 =
      report Settings.standard.labels strayFindings.2 ∧
    strayFindings.1 ≠ strayFindings.2 := by
  refine ⟨?_, ?_, by decide +kernel, by decide⟩
  · intro finding h
    obtain rfl := List.mem_singleton.1 h
    exact ⟨⟨_, _, _, rfl⟩, by decide, by decide⟩
  · intro finding h
    obtain rfl := List.mem_singleton.1 h
    exact ⟨⟨_, _, _, rfl⟩, by decide, by decide⟩

end Wording

end LiteralAudit
