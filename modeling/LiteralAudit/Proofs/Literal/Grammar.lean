import LiteralAudit.Literal
import Mathlib.Computability.Language

/-!
# The grammar of interiors

`IsInterior` builds an interior atom by atom. Two other descriptions agree with
it: the pattern `[^"\\]*(?:\\.[^"\\]*)*`, read as a language, and the function
`close`, which reads an interior off the text behind an opening quote. Since a
function reads it, no second interior can begin at the same place.
-/

namespace LiteralAudit.Literal

open Computability

/-! ## The pattern -/

/-- The class `[^"\\]`. -/
def plainClass : Language Char := {t | ∃ c, c ≠ '"' ∧ c ≠ '\\' ∧ t = [c]}

/-- The escape `\\.`, where the dot stands for all but a line end. -/
def escapeClass : Language Char := {t | ∃ c, c ≠ '\n' ∧ t = ['\\', c]}

/-- The pattern `[^"\\]*(?:\\.[^"\\]*)*`: plain runs with an escape between each
two of them. -/
def interiorPattern : Language Char := plainClass∗ * (escapeClass * plainClass∗)∗

theorem IsInterior.append {s t : Text} (hs : IsInterior s) (ht : IsInterior t) :
    IsInterior (s ++ t) := by
  induction hs with
  | nil => exact ht
  | plain hq hb _ ih => exact .plain hq hb ih
  | escape hn _ ih => exact .escape hn ih

theorem isInterior_of_mem_mul {l m : Language Char} (hl : ∀ t ∈ l, IsInterior t)
    (hm : ∀ t ∈ m, IsInterior t) : ∀ t ∈ l * m, IsInterior t := by
  rintro _ ⟨s, hs, t, ht, rfl⟩
  exact (hl s hs).append (hm t ht)

theorem isInterior_of_mem_kstar {l : Language Char} (hl : ∀ t ∈ l, IsInterior t) :
    ∀ t ∈ l∗, IsInterior t := by
  rintro _ ⟨parts, rfl, hparts⟩
  induction parts with
  | nil => exact .nil
  | cons part parts ih =>
    rw [List.flatten_cons]
    exact (hl part (hparts part (by simp))).append (ih fun t ht => hparts t (by simp [ht]))

theorem isInterior_of_mem_interiorPattern : ∀ t ∈ interiorPattern, IsInterior t := by
  have hplain : ∀ t ∈ plainClass, IsInterior t := by
    rintro _ ⟨c, hq, hb, rfl⟩
    exact .plain hq hb .nil
  have hescape : ∀ t ∈ escapeClass, IsInterior t := by
    rintro _ ⟨c, hn, rfl⟩
    exact .escape hn .nil
  have hrun : ∀ t ∈ plainClass∗, IsInterior t := isInterior_of_mem_kstar hplain
  exact isInterior_of_mem_mul hrun
    (isInterior_of_mem_kstar (isInterior_of_mem_mul hescape hrun))

/-- A plain character may be put in front of the pattern's first run. -/
theorem cons_mem_interiorPattern {c : Char} {t : Text} (hq : c ≠ '"') (hb : c ≠ '\\')
    (ht : t ∈ interiorPattern) : c :: t ∈ interiorPattern := by
  have hle : plainClass * interiorPattern ≤ interiorPattern := by
    rw [interiorPattern, ← mul_assoc]
    exact mul_le_mul_left mul_kstar_le_kstar _
  exact hle (Language.append_mem_mul (a := [c]) ⟨c, hq, hb, rfl⟩ ht)

/-- So may an escape, with the empty run in front of it. -/
theorem escape_cons_mem_interiorPattern {c : Char} {t : Text} (hn : c ≠ '\n')
    (ht : t ∈ interiorPattern) : '\\' :: c :: t ∈ interiorPattern := by
  have hle : escapeClass * interiorPattern ≤ interiorPattern := by
    calc escapeClass * interiorPattern
        = escapeClass * plainClass∗ * (escapeClass * plainClass∗)∗ := by
          rw [interiorPattern, mul_assoc]
      _ ≤ (escapeClass * plainClass∗)∗ := mul_kstar_le_kstar
      _ ≤ interiorPattern := le_mul_of_one_le_left' one_le_kstar
  exact hle (Language.append_mem_mul (a := ['\\', c]) ⟨c, hn, rfl⟩ ht)

/-- The interiors are what the pattern matches. -/
theorem isInterior_iff_mem_interiorPattern {t : Text} :
    IsInterior t ↔ t ∈ interiorPattern := by
  constructor
  · intro h
    induction h with
    | nil => exact Language.append_mem_mul (Language.nil_mem_kstar _) (Language.nil_mem_kstar _)
    | plain hq hb _ ih => exact cons_mem_interiorPattern hq hb ih
    | escape hn _ ih => exact escape_cons_mem_interiorPattern hn ih
  · exact isInterior_of_mem_interiorPattern t

/-! ## Reading an interior -/

@[simp] theorem close_quote (rest : Text) : close ('"' :: rest) = some ([], rest) := by
  unfold close
  simp

theorem close_plain {c : Char} (hq : c ≠ '"') (hb : c ≠ '\\') (rest : Text) :
    close (c :: rest) = (close rest).map fun (interior, behind) => (c :: interior, behind) := by
  conv_lhs => unfold close
  simp [hq, hb]

theorem close_escape {c : Char} (hn : c ≠ '\n') (rest : Text) :
    close ('\\' :: c :: rest) =
      (close rest).map fun (interior, behind) => ('\\' :: c :: interior, behind) := by
  conv_lhs => unfold close
  simp [hn]

/-- An interior in front of a quote is read up to that quote. -/
theorem IsInterior.close_append {interior : Text} (h : IsInterior interior) (behind : Text) :
    close (interior ++ '"' :: behind) = some (interior, behind) := by
  induction h with
  | nil => exact close_quote behind
  | plain hq hb _ ih => simp [close_plain hq hb, ih]
  | escape hn _ ih => simp [close_escape hn, ih]

theorem close_eq_some_iff {text interior behind : Text} :
    close text = some (interior, behind) ↔
      IsInterior interior ∧ text = interior ++ '"' :: behind := by
  constructor
  · intro h
    fun_induction close text generalizing interior behind with
    | case1 => simp at h
    | case2 rest =>
      obtain ⟨rfl, rfl⟩ := by simpa using h
      exact ⟨.nil, rfl⟩
    | case3 => simp at h
    | case4 => simp at h
    | case5 d rest hn _ ih =>
      obtain ⟨⟨i, b⟩, hclose, heq⟩ := Option.map_eq_some_iff.1 h
      obtain ⟨rfl, rfl⟩ := by simpa using heq
      obtain ⟨hi, rfl⟩ := ih hclose
      exact ⟨.escape hn hi, rfl⟩
    | case6 c rest hq hb ih =>
      obtain ⟨⟨i, b⟩, hclose, heq⟩ := Option.map_eq_some_iff.1 h
      obtain ⟨rfl, rfl⟩ := by simpa using heq
      obtain ⟨hi, rfl⟩ := ih hclose
      exact ⟨.plain hq hb hi, rfl⟩
  · rintro ⟨hi, rfl⟩
    exact hi.close_append behind

/-- Reading tells whether a text is an interior: with a quote behind it, it has to be read up
to that quote. -/
instance (t : Text) : Decidable (IsInterior t) :=
  decidable_of_iff (close (t ++ ['"']) = some (t, [])) (by simp [close_eq_some_iff])

/-- A literal ends at its first quote that is not escaped. -/
theorem ofInterior_append_inj {i j s t : Text} (hi : IsInterior i) (hj : IsInterior j)
    (h : ofInterior i ++ s = ofInterior j ++ t) : i = j ∧ s = t := by
  simp only [ofInterior, List.append_assoc, List.singleton_append] at h
  have hclose := hi.close_append s
  have htail : i ++ '"' :: s = j ++ '"' :: t := (List.cons.inj h).2
  rw [htail, hj.close_append] at hclose
  obtain ⟨hinterior, hrest⟩ := Prod.mk.inj (Option.some.inj hclose)
  exact ⟨hinterior.symm, hrest.symm⟩

/-- What is left behind a literal is shorter than the text behind its opening
quote. -/
theorem length_lt_of_close {text interior behind : Text}
    (h : close text = some (interior, behind)) : behind.length < text.length := by
  obtain ⟨_, rfl⟩ := close_eq_some_iff.1 h
  simp only [List.length_append, List.length_cons]
  omega

end LiteralAudit.Literal
