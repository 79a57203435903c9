import LiteralAudit.Proofs.Literal.Grammar
import LiteralAudit.Proofs.Literal.Pass

/-!
# Attempts that die

An attempt to read a literal begins behind a quote and reads atoms. It either
reaches a closing quote or dies, always at one definite place. An attempt that
begins at a quote inside of a dying one begins behind a whole atom, for the quote
was escaped; so both read the same atoms from there on and die together. The
pass may therefore forget a dying attempt without looking at it again.
-/

namespace LiteralAudit.Literal

/-- An attempt that reads the text behind its opening quote dies after so many
characters: at the end of the text, at a backslash that is the last character, or
at a line end behind a backslash. -/
inductive DiesAfter : Text → Nat → Prop where
  | atEnd : DiesAfter [] 0
  | dangling : DiesAfter ['\\'] 0
  | lineEnd (t : Text) : DiesAfter ('\\' :: '\n' :: t) 1
  | plain {c : Char} {t : Text} {n : Nat} (hq : c ≠ '"') (hb : c ≠ '\\') :
      DiesAfter t n → DiesAfter (c :: t) (n + 1)
  | escape {c : Char} {t : Text} {n : Nat} (hn : c ≠ '\n') :
      DiesAfter t n → DiesAfter ('\\' :: c :: t) (n + 2)

/-! ## Which attempts die, and where -/

theorem DiesAfter.close_eq_none {t : Text} {n : Nat} (h : DiesAfter t n) :
    close t = none := by
  induction h with
  | atEnd => rfl
  | dangling => rfl
  | lineEnd t => simp [close]
  | plain hq hb _ ih => simp [close_plain hq hb, ih]
  | escape hn _ ih => simp [close_escape hn, ih]

/-- An attempt that does not close dies somewhere. -/
theorem exists_diesAfter_of_close_eq_none {t : Text} (h : close t = none) :
    ∃ n, DiesAfter t n := by
  fun_induction close t with
  | case1 => exact ⟨0, .atEnd⟩
  | case2 => simp at h
  | case3 => exact ⟨0, .dangling⟩
  | case4 rest => exact ⟨1, .lineEnd rest⟩
  | case5 d rest hn _ ih =>
    obtain ⟨n, hdies⟩ := ih (by simpa using h)
    exact ⟨n + 2, .escape hn hdies⟩
  | case6 c rest hq hb ih =>
    obtain ⟨n, hdies⟩ := ih (by simpa using h)
    exact ⟨n + 1, .plain hq hb hdies⟩

/-- An attempt dies at one place only. -/
theorem DiesAfter.unique {t : Text} {n m : Nat} (hn : DiesAfter t n) (hm : DiesAfter t m) :
    n = m := by
  induction hn generalizing m with
  | atEnd => cases hm; rfl
  | dangling =>
    cases hm with
    | dangling => rfl
    | plain _ hb => exact absurd rfl hb
  | lineEnd t =>
    cases hm with
    | lineEnd => rfl
    | plain _ hb => exact absurd rfl hb
    | escape hn => exact absurd rfl hn
  | plain hq hb _ ih =>
    cases hm with
    | dangling => exact absurd rfl hb
    | lineEnd => exact absurd rfl hb
    | plain _ _ hm => rw [ih hm]
    | escape => exact absurd rfl hb
  | escape hc _ ih =>
    cases hm with
    | lineEnd => exact absurd rfl hc
    | plain _ hb => exact absurd rfl hb
    | escape _ hm => rw [ih hm]

/-! ## Attempts inside of a dying one -/

/-- The attempt from a quote inside of a dying one dies at the same place. -/
theorem DiesAfter.inner {t : Text} {n k : Nat} (h : DiesAfter t n) (hk : k < n)
    (hq : t[k]? = some '"') : DiesAfter (t.drop (k + 1)) (n - (k + 1)) := by
  induction h generalizing k with
  | atEnd => omega
  | dangling => omega
  | lineEnd t =>
    obtain rfl : k = 0 := by omega
    simp at hq
  | @plain c t n hc _ _ ih =>
    cases k with
    | zero => exact absurd (by simpa using hq) hc
    | succ k => simpa using ih (by omega) (by simpa using hq)
  | @escape c t n _ h ih =>
    -- the quote is the escaped character, or it stands behind the escape
    match k with
    | 0 => simp at hq
    | 1 => simpa using h
    | k + 2 =>
      have hinner := ih (k := k) (by omega) (by simpa using hq)
      simpa [show n + 2 - (k + 2 + 1) = n - (k + 1) by omega] using hinner

/-- In a dying attempt the pass finds what it would find had no quote opened it. -/
theorem DiesAfter.interiorsFrom_inside {t : Text} {n : Nat} (h : DiesAfter t n)
    (read : Text) : interiorsFrom (.inside read) t = interiors t := by
  induction h generalizing read with
  | atEnd => rfl
  | dangling => rfl
  | lineEnd t => simp [interiors, interiorsFrom]
  | plain hq hb _ ih => rw [interiorsFrom_inside_plain hq hb, interiors_cons_of_ne hq, ih]
  | @escape c t _ hn _ ih =>
    rw [interiorsFrom_inside_escape hn, ih, interiors_cons_of_ne (by decide)]
    -- an escaped quote opens an attempt of its own when nothing is open
    by_cases hq : c = '"'
    · rw [hq, interiors_quote, ih]
    · rw [interiors_cons_of_ne hq]

/-- A quote whose attempt dies counts for nothing. -/
theorem interiors_quote_of_dies {rest : Text} (h : close rest = none) :
    interiors ('"' :: rest) = interiors rest := by
  obtain ⟨_, hdies⟩ := exists_diesAfter_of_close_eq_none h
  rw [interiors_quote, hdies.interiorsFrom_inside]

end LiteralAudit.Literal
