import LiteralAudit.Proofs.Json.Values

/-!
# The grammar of JSON

What a JSON value is, whatever it stands for: numerals of any size, strings whose escapes
need not name characters, and lists and objects nested to any depth, with any white space
between the tokens.
-/

namespace LiteralAudit.Json

/-! ## Strings and numerals -/

/-- The characters between the quotes of a string. An escape of four digits may name a
surrogate that has no partner. -/
inductive IsStringBody : Text → Prop where
  | nil : IsStringBody []
  | plain {c : Char} {t : Text} (hq : c ≠ '"') (hb : c ≠ '\\') (hc : 0x20 ≤ c.toNat) :
      IsStringBody t → IsStringBody (c :: t)
  | short {letter c : Char} {t : Text} (h : (letter, c) ∈ shortEscapes) :
      IsStringBody t → IsStringBody ('\\' :: letter :: t)
  | unit {digits t : Text} {n : Nat} (h : IsHexUnit digits n) :
      IsStringBody t → IsStringBody ('\\' :: 'u' :: (digits ++ t))

/-- One digit at least, and nothing but digits. -/
def AreDigits (t : Text) : Prop := t ≠ [] ∧ ∀ c ∈ t, c.isDigit

/-- The whole part of a numeral, which does not begin with a zero unless it is one. -/
inductive IsWhole : Text → Prop where
  | zero : IsWhole ['0']
  | digits {c : Char} {t : Text} (hc : c.isDigit) (hzero : c ≠ '0') (ht : ∀ d ∈ t, d.isDigit) :
      IsWhole (c :: t)

/-- The fraction of a numeral, which may be left out. -/
inductive IsFraction : Text → Prop where
  | none : IsFraction []
  | digits {t : Text} (h : AreDigits t) : IsFraction ('.' :: t)

/-- The exponent of a numeral, which may be left out. -/
inductive IsExponent : Text → Prop where
  | none : IsExponent []
  | digits {letter : Char} {sign t : Text} (hletter : letter = 'e' ∨ letter = 'E')
      (hsign : sign ∈ [[], ['+'], ['-']]) (h : AreDigits t) : IsExponent (letter :: (sign ++ t))

/-- A numeral without its sign. -/
inductive IsMagnitude : Text → Prop where
  | parts {whole fraction exponent : Text} (hwhole : IsWhole whole)
      (hfraction : IsFraction fraction) (hexponent : IsExponent exponent) :
      IsMagnitude (whole ++ (fraction ++ exponent))

/-! ## Values -/

def Skim.Bracket.opening : Skim.Bracket → Char
  | .list => '['
  | .object => '\x7b'

def Skim.Bracket.closing : Skim.Bracket → Char
  | .list => ']'
  | .object => '\x7d'

/-- What stands in front of a value in a bracket: nothing in a list, and the key with its
colon in an object. -/
inductive IsLabel : Skim.Bracket → Text → Prop where
  | list : IsLabel .list []
  | object {body before after : Text} (hbody : IsStringBody body) (hbefore : IsSpace before)
      (hafter : IsSpace after) :
      IsLabel .object ('"' :: (body ++ '"' :: (before ++ ':' :: after)))

/-- The parts of a JSON text. -/
inductive Part where
  | value
  /-- What stands behind an opening bracket, up to the closing one and with it. -/
  | opened (b : Skim.Bracket)
  /-- What stands behind a value in a bracket, up to the closing bracket and with it. -/
  | behind (b : Skim.Bracket)

/-- The text is such a part. -/
inductive IsPart : Part → Text → Prop where
  | word {t : Text} (h : t ∈ ["null".toList, "true".toList, "false".toList]) : IsPart .value t
  | string {body : Text} (h : IsStringBody body) : IsPart .value ('"' :: (body ++ ['"']))
  | magnitude {t : Text} (h : IsMagnitude t) : IsPart .value t
  | negative {t : Text} (h : IsMagnitude t) : IsPart .value ('-' :: t)
  | bracket {b : Skim.Bracket} {rest : Text} :
      IsPart (.opened b) rest → IsPart .value (b.opening :: rest)
  | empty {b : Skim.Bracket} {space : Text} (hspace : IsSpace space) :
      IsPart (.opened b) (space ++ [b.closing])
  | first {b : Skim.Bracket} {space label value rest : Text} (hspace : IsSpace space)
      (hlabel : IsLabel b label) :
      IsPart .value value → IsPart (.behind b) rest →
      IsPart (.opened b) (space ++ (label ++ (value ++ rest)))
  | close {b : Skim.Bracket} {space : Text} (hspace : IsSpace space) :
      IsPart (.behind b) (space ++ [b.closing])
  | next {b : Skim.Bracket} {before after label value rest : Text} (hbefore : IsSpace before)
      (hafter : IsSpace after) (hlabel : IsLabel b label) :
      IsPart .value value → IsPart (.behind b) rest →
      IsPart (.behind b) (before ++ ',' :: (after ++ (label ++ (value ++ rest))))

/-- The text is a JSON value. -/
abbrev IsValue (t : Text) : Prop := IsPart .value t

/-! ## How they begin and end -/

theorem IsMagnitude.begins {t : Text} (h : IsMagnitude t) :
    ∃ c rest, t = c :: rest ∧ c.isDigit := by
  obtain ⟨hwhole, -, -⟩ := h
  cases hwhole with
  | zero => exact ⟨'0', _, rfl, rfl⟩
  | digits hc _ _ => exact ⟨_, _, rfl, hc⟩

/-- A value begins with a token, which is no closing bracket. -/
theorem IsValue.begins {t : Text} (h : IsValue t) : BeginsElement t := by
  cases h with
  | word h =>
    simp only [List.mem_cons, List.not_mem_nil, or_false] at h
    rcases h with rfl | rfl | rfl <;> exact ⟨_, _, rfl, rfl, by decide⟩
  | string _ => exact ⟨'"', _, rfl, rfl, by decide⟩
  | magnitude h =>
    obtain ⟨c, rest, rfl, hc⟩ := h.begins
    exact beginsElement_of_isDigit hc rest
  | negative _ => exact ⟨'-', _, rfl, rfl, by decide⟩
  | @bracket b _ _ => cases b <;> exact ⟨_, _, rfl, rfl, by decide⟩

/-- What stands behind a value does not go on with a numeral. -/
theorem IsPart.endsNumeral {b : Skim.Bracket} {t : Text} (h : IsPart (.behind b) t)
    (behind : Text) : EndsNumeral (t ++ behind) := by
  cases h with
  | close hspace =>
    rw [List.append_assoc]
    refine hspace.endsNumeral_append ?_
    cases b <;> exact endsNumeral_cons (by decide) (by decide) (by decide) (by decide) _
  | next hbefore _ _ _ _ =>
    rw [List.append_assoc]
    exact hbefore.endsNumeral_append
      (endsNumeral_cons (by decide) (by decide) (by decide) (by decide) _)

end LiteralAudit.Json
