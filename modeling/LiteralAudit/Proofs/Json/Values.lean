import LiteralAudit.Json.Reader
import LiteralAudit.Proofs.Json.Strings
import LiteralAudit.Proofs.Steps
import Mathlib.Data.List.TakeWhile

/-!
# Values read back

What it means that a reader takes a written text for a value: it finds the value
behind any white space, and it stops at the end of the text whatever comes next. Only
a numeral has no end of its own, so what comes next must not go on with one.
-/

namespace LiteralAudit.Json

/-- White space between tokens. -/
def IsSpace (t : Text) : Prop := ∀ c ∈ t, Skim.isSpace c

instance (t : Text) : Decidable (IsSpace t) := List.decidableBAll _ t

/-- The text does not go on with a numeral in front of it. -/
def EndsNumeral (t : Text) : Prop :=
  ∀ c rest, t = c :: rest → c.isDigit = false ∧ c ≠ '.' ∧ c ≠ 'e' ∧ c ≠ 'E'

/-- The reader takes the written text for the value. -/
def Reads {α : Type} (reader : Text → Reading α) (written : Text) (a : α) : Prop :=
  ∀ space behind, IsSpace space → EndsNumeral behind →
    reader (space ++ (written ++ behind)) = .ok (a, behind)

/-! ## White space -/

theorem isSpace_nil : IsSpace [] := by
  intro c hc
  cases hc

theorem IsSpace.append {s t : Text} (hs : IsSpace s) (ht : IsSpace t) : IsSpace (s ++ t) := by
  intro c hc
  rcases List.mem_append.1 hc with hc | hc
  · exact hs c hc
  · exact ht c hc

theorem isSpace_append_iff {s t : Text} : IsSpace (s ++ t) ↔ IsSpace s ∧ IsSpace t :=
  List.forall_mem_append

theorem skipSpace_eq_nil_iff {t : Text} : skipSpace t = [] ↔ IsSpace t := by
  rw [skipSpace, IsSpace, List.dropWhile_eq_nil_iff]

theorem IsSpace.skipSpace_append {space : Text} (h : IsSpace space) (t : Text) :
    skipSpace (space ++ t) = skipSpace t := by
  rw [skipSpace, List.dropWhile_append_of_pos h]
  rfl

/-- Nothing is skipped in front of a token. -/
theorem skipSpace_cons {c : Char} (h : Skim.isSpace c = false) (t : Text) :
    skipSpace (c :: t) = c :: t := by
  rw [skipSpace, List.dropWhile_cons_of_neg (by simp [h])]

theorem IsSpace.skipSpace_token {space : Text} (hspace : IsSpace space) {c : Char}
    (hc : Skim.isSpace c = false) (t : Text) : skipSpace (space ++ c :: t) = c :: t := by
  rw [hspace.skipSpace_append, skipSpace_cons hc]

/-! ## What ends a numeral -/

theorem endsNumeral_cons {c : Char} (hdigit : c.isDigit = false) (hpoint : c ≠ '.')
    (he : c ≠ 'e') (hE : c ≠ 'E') (rest : Text) : EndsNumeral (c :: rest) := by
  intro d t h
  cases h
  exact ⟨hdigit, hpoint, he, hE⟩

/-- White space ends a numeral. -/
theorem IsSpace.endsNumeral_append {space : Text} (hspace : IsSpace space) {t : Text}
    (ht : EndsNumeral t) : EndsNumeral (space ++ t) := by
  cases space with
  | nil => exact ht
  | cons c space =>
    have hc : Skim.isSpace c := hspace c (List.mem_cons_self ..)
    simp only [Skim.isSpace, Bool.or_eq_true, decide_eq_true_eq] at hc
    rcases hc with ((rfl | rfl) | rfl) | rfl <;>
      exact endsNumeral_cons (by decide) (by decide) (by decide) (by decide) _

theorem IsSpace.endsNumeral {space : Text} (h : IsSpace space) : EndsNumeral space := by
  have hnil : EndsNumeral [] := by
    rintro _ _ ⟨⟩
  have happend := h.endsNumeral_append hnil
  rwa [List.append_nil] at happend

/-! ## Strings and characters -/

theorem IsString.reads {written t : Text} (h : IsString written t) : Reads string written t := by
  obtain ⟨body, hbody, rfl⟩ := h
  intro space behind hspace _
  rw [string, List.cons_append, hspace.skipSpace_token (by decide), List.append_assoc]
  exact hbody.characters_append behind

theorem IsString.reads_character {written : Text} {c : Char} (h : IsString written [c]) :
    Reads character written c := by
  obtain ⟨body, hbody, rfl⟩ := h
  intro space behind hspace _
  rw [character, List.cons_append, hspace.skipSpace_token (by decide), List.append_assoc]
  simp only [List.singleton_append, hbody.characters_append behind]
  rfl

/-- A string begins with its quote. -/
theorem IsString.begins {written t : Text} (h : IsString written t) :
    ∃ rest, written = '"' :: rest := by
  obtain ⟨body, -, rfl⟩ := h
  exact ⟨_, rfl⟩

/-! ## Numerals -/

theorem leadingDigits_append {digits behind : Text} (hdigits : ∀ c ∈ digits, c.isDigit)
    (hbehind : EndsNumeral behind) : leadingDigits (digits ++ behind) = digits := by
  have hnone : behind.takeWhile Char.isDigit = [] := by
    cases behind with
    | nil => rfl
    | cons c rest => simp [(hbehind c rest rfl).1]
  rw [leadingDigits, List.takeWhile_append_of_pos hdigits, hnone, List.append_nil]

theorem afterDigits_append {digits behind : Text} (hdigits : ∀ c ∈ digits, c.isDigit)
    (hbehind : EndsNumeral behind) : afterDigits (digits ++ behind) = behind := by
  rw [afterDigits, List.dropWhile_append_of_pos hdigits]
  cases behind with
  | nil => rfl
  | cons c rest => simp [(hbehind c rest rfl).1]

/-- Digits whose number is below the bound all go into the significand. -/
theorem appendDigits_of_lt {bound significand : Nat} {digits : Text}
    (h : Nat.ofDigitChars 10 digits significand < bound) :
    appendDigits bound significand digits = (Nat.ofDigitChars 10 digits significand, 0) := by
  induction digits generalizing significand with
  | nil => rfl
  | cons c digits ih =>
    have hnext : 10 * significand + (c.toNat - '0'.toNat) =
        significand * 10 + digitValue c := by
      rw [Nat.mul_comm, digitValue]
    rw [Nat.ofDigitChars_cons, hnext] at h ⊢
    -- a number is not smaller than that of its leading digits
    have hle : significand * 10 + digitValue c ≤
        Nat.ofDigitChars 10 digits (significand * 10 + digitValue c) := by
      rw [Nat.ofDigitChars_eq_ofDigitChars_zero]
      exact Nat.le_add_right_of_le (Nat.le_mul_of_pos_left _ (Nat.pow_pos (by decide)))
    rw [appendDigits]
    simp only [Nat.lt_of_le_of_lt hle h, if_true]
    exact ih h

/-- Only the numeral of zero begins with a zero. -/
theorem ofNat_eq_zero_cons {n : Nat} {digits : Text} (h : Text.ofNat n = '0' :: digits) :
    n = 0 := by
  induction n using Nat.strongRecOn generalizing digits with
  | ind n ih =>
    rw [Text.ofNat] at h
    rcases Nat.lt_or_ge n 10 with hlt | hge
    · rw [Nat.toDigits_of_lt_base hlt, List.cons.injEq, Nat.digitChar_eq_zero] at h
      exact h.1
    · rw [Nat.toDigits_of_base_le (by decide) hge] at h
      cases htens : Nat.toDigits 10 (n / 10) with
      | nil => exact absurd htens Nat.toDigits_ne_nil
      | cons c tens =>
        rw [htens, List.cons_append, List.cons.injEq] at h
        rw [h.1] at htens
        have := ih (n / 10) (by omega) htens
        omega

/-- A number behind which the text does not go on with its numeral. -/
theorem afterWhole_of_endsNumeral {significand : Nat} {behind : Text}
    (h : EndsNumeral behind) :
    afterWhole false significand 0 behind = .ok (.natural significand, behind) := by
  cases behind with
  | nil => rfl
  | cons c rest =>
    obtain ⟨-, hpoint, he, hE⟩ := h c rest rfl
    simp [afterWhole, hpoint, he, hE]

/-- Digits that all fit are read as a whole number, if no further ones follow a zero. -/
theorem number_of_digits {c : Char} {digits behind : Text} {n : Nat}
    (hdigits : ∀ d ∈ c :: digits, d.isDigit) (hzero : c = '0' → digits = [])
    (hvalue : appendDigits naturalBound 0 (c :: digits) = (n, 0))
    (hbehind : EndsNumeral behind) :
    number false (c :: digits ++ behind) = .ok (.natural n, behind) := by
  have hleading := leadingDigits_append hdigits hbehind
  have hafter := afterDigits_append hdigits hbehind
  rw [List.cons_append] at hleading hafter ⊢
  unfold number
  split
  · next h => cases h
  · next h =>
    cases h
    obtain rfl := hzero rfl
    obtain rfl : 0 = n := congrArg Prod.fst hvalue
    have hnil : ∀ d ∈ ([] : Text), d.isDigit := by simp
    have hnone : leadingDigits behind = [] := leadingDigits_append hnil hbehind
    simp [hnone, afterWhole_of_endsNumeral hbehind]
  · next h =>
    cases h
    simp only [hdigits c (List.mem_cons_self ..), if_true, hleading, hafter, hvalue]
    exact afterWhole_of_endsNumeral hbehind

theorem number_ofNat {n : Nat} (hn : n < naturalBound) {behind : Text}
    (hbehind : EndsNumeral behind) :
    number false (Text.ofNat n ++ behind) = .ok (.natural n, behind) := by
  have hdigits : ∀ c ∈ Text.ofNat n, c.isDigit := fun c hc => Text.isDigit_of_mem_ofNat hc
  have hvalue : Nat.ofDigitChars 10 (Text.ofNat n) 0 = n := Nat.ofDigitChars_ten_toDigits
  have happend : appendDigits naturalBound 0 (Text.ofNat n) = (n, 0) := by
    rw [appendDigits_of_lt (by rw [hvalue]; exact hn), hvalue]
  cases htext : Text.ofNat n with
  | nil => exact absurd htext (Text.ofNat_ne_nil n)
  | cons c digits =>
    have hzero : c = '0' → digits = [] := by
      rintro rfl
      obtain rfl : n = 0 := ofNat_eq_zero_cons htext
      simpa [Text.ofNat] using htext.symm
    rw [htext] at hdigits happend
    exact number_of_digits hdigits hzero happend hbehind

/-- A digit is a token's first character. -/
theorem isSpace_of_isDigit {c : Char} (h : c.isDigit) : Skim.isSpace c = false := by
  cases hspace : Skim.isSpace c with
  | false => rfl
  | true =>
    simp only [Skim.isSpace, Bool.or_eq_true, decide_eq_true_eq] at hspace
    rcases hspace with ((rfl | rfl) | rfl) | rfl <;> cases h

/-- The text begins with a token that does not close a list. -/
def BeginsElement (t : Text) : Prop :=
  ∃ c rest, t = c :: rest ∧ Skim.isSpace c = false ∧ c ≠ ']'

theorem beginsElement_of_isDigit {c : Char} (h : c.isDigit) (rest : Text) :
    BeginsElement (c :: rest) := by
  refine ⟨c, rest, rfl, isSpace_of_isDigit h, ?_⟩
  rintro rfl
  cases h

/-- Where a numeral without a sign comes next, its number is read. -/
theorem natural_of_number {text rest : Text} {c : Char} {digits : Text} {n : Nat}
    (hskip : skipSpace text = c :: digits) (hc : c.isDigit)
    (h : number false (c :: digits) = .ok (.natural n, rest)) : natural text = .ok (n, rest) := by
  unfold natural
  rw [hskip]
  split
  · next h =>
    cases h
    cases hc
  · next h =>
    cases h
    rw [if_pos hc, h]
  · next h => cases h

theorem reads_ofNat {n : Nat} (hn : n < naturalBound) : Reads natural (Text.ofNat n) n := by
  intro space behind hspace hbehind
  have hnumber := number_ofNat hn hbehind
  cases htext : Text.ofNat n with
  | nil => exact absurd htext (Text.ofNat_ne_nil n)
  | cons c digits =>
    have hmem : c ∈ Text.ofNat n := by
      rw [htext]
      exact List.mem_cons_self ..
    have hc : c.isDigit := Text.isDigit_of_mem_ofNat hmem
    rw [htext] at hnumber
    exact natural_of_number (hspace.skipSpace_token (isSpace_of_isDigit hc) _) hc hnumber

/-! ## Whole texts -/

/-- A text is taken as a whole if nothing but white space stands behind its value. -/
theorem document_eq_ok_iff {α : Type} {value : Text → Reading α} {text : Text} {a : α} :
    document value text = .ok a ↔ ∃ rest, value text = .ok (a, rest) ∧ IsSpace rest := by
  unfold document
  constructor
  · intro h
    obtain ⟨⟨b, rest⟩, hvalue, h⟩ := exists_of_bind_eq_ok h
    simp only at h
    split at h
    · next hskip =>
      cases h
      exact ⟨rest, hvalue, skipSpace_eq_nil_iff.1 hskip⟩
    · cases h
  · rintro ⟨rest, hvalue, hspace⟩
    rw [hvalue]
    simp only [bind, Except.bind, skipSpace_eq_nil_iff.2 hspace]
    rfl

end LiteralAudit.Json
