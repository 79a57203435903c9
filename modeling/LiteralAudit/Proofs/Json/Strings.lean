import LiteralAudit.Json.Strings
import LiteralAudit.Json.Writer

/-!
# Strings read back

A character may be spelled as itself, unless it is a quote, a backslash or a control
character; as a backslash and a letter, if it has such an escape; or with four hexadecimal
digits, two times four beyond U+FFFF. The reader takes the spellings one by one, whatever
follows them, and stops at the closing quote. A written string has a spelling for each
character.
-/

namespace LiteralAudit.Json

/-! ## Spellings -/

/-- The digit stands for the number, in lower case or in upper case. -/
def IsHexDigit (c : Char) (n : Nat) : Prop :=
  n < 16 ∧ (c = Nat.digitChar n ∨ c = (Nat.digitChar n).toUpper)

instance (c : Char) (n : Nat) : Decidable (IsHexDigit c n) :=
  inferInstanceAs (Decidable (n < 16 ∧ (c = Nat.digitChar n ∨ c = (Nat.digitChar n).toUpper)))

/-- Four hexadecimal digits that stand for a number. -/
def IsHexUnit (digits : Text) (n : Nat) : Prop :=
  ∃ a b c d i j k l, digits = [a, b, c, d] ∧ IsHexDigit a i ∧ IsHexDigit b j ∧
    IsHexDigit c k ∧ IsHexDigit d l ∧ n = ((i * 16 + j) * 16 + k) * 16 + l

/-- The digits of a number are its digits to the base of sixteen, the highest in front. -/
theorem isHexUnit_iff {a b c d : Char} {n : Nat} :
    IsHexUnit [a, b, c, d] n ↔ IsHexDigit a (n / 0x1000) ∧ IsHexDigit b (n / 0x100 % 0x10) ∧
      IsHexDigit c (n / 0x10 % 0x10) ∧ IsHexDigit d (n % 0x10) := by
  constructor
  · rintro ⟨_, _, _, _, i, j, k, l, heq, ha, hb, hc, hd, rfl⟩
    cases heq
    have hj := hb.1
    have hk := hc.1
    have hl := hd.1
    rw [show (((i * 16 + j) * 16 + k) * 16 + l) / 0x1000 = i by omega,
      show (((i * 16 + j) * 16 + k) * 16 + l) / 0x100 % 0x10 = j by omega,
      show (((i * 16 + j) * 16 + k) * 16 + l) / 0x10 % 0x10 = k by omega,
      show (((i * 16 + j) * 16 + k) * 16 + l) % 0x10 = l by omega]
    exact ⟨ha, hb, hc, hd⟩
  · rintro ⟨ha, hb, hc, hd⟩
    exact ⟨a, b, c, d, _, _, _, _, rfl, ha, hb, hc, hd, by omega⟩

instance (a b c d : Char) (n : Nat) : Decidable (IsHexUnit [a, b, c, d] n) :=
  decidable_of_iff' _ isHexUnit_iff

/-- The letters that stand for a character behind a backslash, with that character. -/
def shortEscapes : List (Char × Char) :=
  [('"', '"'), ('\\', '\\'), ('/', '/'), ('b', '\x08'), ('f', '\x0c'), ('n', '\n'),
   ('r', '\r'), ('t', '\t')]

/-- What may be written inside a string for a character. -/
inductive SpellsChar : Text → Char → Prop where
  | plain {c : Char} (hq : c ≠ '"') (hb : c ≠ '\\') (hc : 0x20 ≤ c.toNat) : SpellsChar [c] c
  | short {letter c : Char} (h : (letter, c) ∈ shortEscapes) : SpellsChar ['\\', letter] c
  | unit {digits : Text} {c : Char} (h : IsHexUnit digits c.toNat) :
      SpellsChar ('\\' :: 'u' :: digits) c
  | pair {high low : Text} {c : Char} (hc : 0x10000 ≤ c.toNat)
      (hhigh : IsHexUnit high (0xd800 + (c.toNat - 0x10000) / 0x400))
      (hlow : IsHexUnit low (0xdc00 + (c.toNat - 0x10000) % 0x400)) :
      SpellsChar ('\\' :: 'u' :: (high ++ '\\' :: 'u' :: low)) c

/-- What may be written between the quotes of a string for a text. -/
inductive IsSpelling : Text → Text → Prop where
  | nil : IsSpelling [] []
  | cons {piece body t : Text} {c : Char} :
      SpellsChar piece c → IsSpelling body t → IsSpelling (piece ++ body) (c :: t)

/-! ## One character -/

theorem characters_quote (rest : Text) : characters ('"' :: rest) = .ok ([], rest) := by
  rw [characters.eq_def]
  rfl

theorem characters_plain {c : Char} (hq : c ≠ '"') (hb : c ≠ '\\') (hc : isControl c = false)
    (rest : Text) : characters (c :: rest) = (characters rest).prepend c := by
  rw [characters.eq_def]
  simp only [hq, hb, hc, Bool.false_eq_true, if_false]

theorem characters_shortEscape {letter c : Char} (h : shortEscape? letter = some c)
    (rest : Text) : characters ('\\' :: letter :: rest) = (characters rest).prepend c := by
  have hq : ('\\' : Char) ≠ '"' := by decide
  rw [characters.eq_def]
  simp only [hq, if_false, if_true, h]

/-- An escape of four digits that name no surrogate. -/
theorem characters_unit {a b c d : Char} {n : Nat} (h : hexUnit? a b c d = some n)
    (hlow : isLowSurrogate n = false) (hhigh : isHighSurrogate n = false) (rest : Text) :
    characters ('\\' :: 'u' :: a :: b :: c :: d :: rest) =
      (characters rest).prepend (Char.ofNat n) := by
  have hq : ('\\' : Char) ≠ '"' := by decide
  have hu : shortEscape? 'u' = none := rfl
  rw [characters.eq_def]
  simp only [hq, hu, h, hlow, hhigh, Bool.false_eq_true, if_false, if_true]

/-- Two escapes of four digits that name a pair of surrogates. -/
theorem characters_pair {a b c d a' b' c' d' : Char} {n m : Nat} (h : hexUnit? a b c d = some n)
    (h' : hexUnit? a' b' c' d' = some m) (hlow : isLowSurrogate n = false)
    (hhigh : isHighSurrogate n) (hlow' : isLowSurrogate m) (rest : Text) :
    characters ('\\' :: 'u' :: a :: b :: c :: d :: '\\' :: 'u' :: a' :: b' :: c' :: d' :: rest) =
      (characters rest).prepend (pairedChar n m) := by
  have hq : ('\\' : Char) ≠ '"' := by decide
  have hu : shortEscape? 'u' = none := rfl
  rw [characters.eq_def]
  simp only [hq, hu, h, h', hlow, hhigh, hlow', Bool.false_eq_true, if_false, if_true]

theorem IsHexDigit.hexDigit? {c : Char} {n : Nat} (h : IsHexDigit c n) :
    Json.hexDigit? c = some n := by
  have hcases : ∀ n < 16, Json.hexDigit? (Nat.digitChar n) = some n ∧
      Json.hexDigit? (Nat.digitChar n).toUpper = some n := by
    decide
  obtain ⟨hlower, hupper⟩ := hcases n h.1
  rcases h.2 with rfl | rfl
  · exact hlower
  · exact hupper

theorem IsHexUnit.exists_digits {digits : Text} {n : Nat} (h : IsHexUnit digits n) :
    ∃ a b c d, digits = [a, b, c, d] ∧ hexUnit? a b c d = some n := by
  obtain ⟨a, b, c, d, i, j, k, l, rfl, ha, hb, hc, hd, rfl⟩ := h
  refine ⟨a, b, c, d, rfl, ?_⟩
  simp only [hexUnit?, ha.hexDigit?, hb.hexDigit?, hc.hexDigit?, hd.hexDigit?, Option.pure_def,
    Option.bind_eq_bind, Option.bind_some]

/-- No character is a surrogate. -/
theorem isSurrogate_toNat (c : Char) :
    isLowSurrogate c.toNat = false ∧ isHighSurrogate c.toNat = false := by
  have hvalid : c.toNat < 0xd800 ∨ 0xdfff < c.toNat ∧ c.toNat < 0x110000 := c.valid
  simp only [isLowSurrogate, isHighSurrogate, Bool.and_eq_false_iff, decide_eq_false_iff_not]
  omega

/-- The reader takes what is written for a character as that character. -/
theorem SpellsChar.characters_append {piece : Text} {c : Char} (h : SpellsChar piece c)
    (rest : Text) : characters (piece ++ rest) = (characters rest).prepend c := by
  cases h with
  | plain hq hb hc =>
    refine characters_plain hq hb ?_ rest
    rw [isControl]
    exact decide_eq_false (Nat.not_lt.2 hc)
  | short h =>
    have hescapes : ∀ escape ∈ shortEscapes, shortEscape? escape.1 = some escape.2 := by decide
    exact characters_shortEscape (hescapes _ h) rest
  | unit h =>
    obtain ⟨a, b, d, e, rfl, hunit⟩ := h.exists_digits
    obtain ⟨hlow, hhigh⟩ := isSurrogate_toNat c
    have hread := characters_unit hunit hlow hhigh rest
    rwa [Char.ofNat_toNat] at hread
  | @pair high low c hc hhigh hlow =>
    obtain ⟨a, b, d, e, rfl, hunit⟩ := hhigh.exists_digits
    obtain ⟨a', b', d', e', rfl, hunit'⟩ := hlow.exists_digits
    -- what is left above U+FFFF has twenty bits, ten for each of the two
    have hbound : c.toNat < 0x110000 := by
      have hvalid : c.toNat < 0xd800 ∨ 0xdfff < c.toNat ∧ c.toNat < 0x110000 := c.valid
      omega
    have hchar : pairedChar (0xd800 + (c.toNat - 0x10000) / 0x400)
        (0xdc00 + (c.toNat - 0x10000) % 0x400) = c := by
      have hvalue : 0x10000 + (0xd800 + (c.toNat - 0x10000) / 0x400 - 0xd800) * 0x400 +
          (0xdc00 + (c.toNat - 0x10000) % 0x400 - 0xdc00) = c.toNat := by
        omega
      rw [pairedChar, hvalue, Char.ofNat_toNat]
    have hread := characters_pair hunit hunit' (by simp [isLowSurrogate]; omega)
      (by simp [isHighSurrogate]; omega) (by simp [isLowSurrogate]; omega) rest
    rw [hchar] at hread
    exact hread

/-! ## Whole strings -/

/-- The reader takes the spelling up to the closing quote for the text. -/
theorem IsSpelling.characters_append {body t : Text} (h : IsSpelling body t) (behind : Text) :
    characters (body ++ '"' :: behind) = .ok (t, behind) := by
  induction h with
  | nil => exact characters_quote behind
  | cons hc _ ih =>
    rw [List.append_assoc, hc.characters_append, ih]
    rfl

/-- A string, with its quotes, that stands for the text. -/
def IsString (written t : Text) : Prop :=
  ∃ body, IsSpelling body t ∧ written = '"' :: (body ++ ['"'])

/-! ## Written strings -/

theorem spellsChar_writtenChar (c : Char) : SpellsChar (writtenChar c) c := by
  unfold writtenChar
  split
  · next h => exact .short (by rw [h]; decide)
  split
  · next h => exact .short (by rw [h]; decide)
  split
  · next h => exact .short (by rw [h]; decide)
  split
  · next h => exact .short (by rw [h]; decide)
  split
  · next h => exact .short (by rw [h]; decide)
  split
  · next h => exact .short (by rw [h]; decide)
  split
  · next h => exact .short (by rw [h]; decide)
  split
  · next h =>
    refine .unit ⟨'0', '0', _, _, 0, 0, c.toNat / 16, c.toNat % 16, rfl, ?_, ?_, ?_, ?_, ?_⟩
    · exact ⟨by decide, .inl rfl⟩
    · exact ⟨by decide, .inl rfl⟩
    · exact ⟨by omega, .inl rfl⟩
    · exact ⟨by omega, .inl rfl⟩
    · omega
  · next hq hb _ _ _ _ _ hcontrol => exact .plain hq hb (Nat.not_lt.1 hcontrol)

theorem isSpelling_written (t : Text) : IsSpelling (t.flatMap writtenChar) t := by
  induction t with
  | nil => exact .nil
  | cons c t ih => exact .cons (spellsChar_writtenChar c) ih

theorem isString_written (t : Text) : IsString (writtenString t) t :=
  ⟨_, isSpelling_written t, by simp [writtenString]⟩

end LiteralAudit.Json
