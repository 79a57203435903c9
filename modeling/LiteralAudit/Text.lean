/-!
Texts as this library handles them: source files, settings, paths and
reports are all sequences of characters. Bytes matter only where a position
in a file is named, and then a text is measured by the bytes it takes in
UTF-8.
-/

namespace LiteralAudit

/-- A text is the sequence of its characters. A character is a Unicode scalar
value, so the length of a text counts scalar values. -/
abbrev Text := List Char

namespace Text

/-- The number of bytes that the text takes in UTF-8. -/
def byteSize : Text → Nat
  | [] => 0
  | c :: rest => c.utf8Size + byteSize rest

/-- Whether another text occurs somewhere in the text. -/
def holds (t part : Text) : Bool :=
  part.isPrefixOf t || match t with
    | [] => false
    | _ :: rest => holds rest part

/-- The decimal numeral of a number. -/
def ofNat (n : Nat) : Text := Nat.toDigits 10 n

/-- The numeral of a number in base sixteen, with lower-case letters. -/
def hexOfNat (n : Nat) : Text := Nat.toDigits 16 n

/-- The text followed by a line end. -/
def line (t : Text) : Text := t ++ ['\n']

@[simp] theorem byteSize_cons (c : Char) (t : Text) :
    byteSize (c :: t) = c.utf8Size + byteSize t := rfl

theorem ofNat_ne_nil (n : Nat) : ofNat n ≠ [] := Nat.toDigits_ne_nil

theorem isDigit_of_mem_ofNat {n : Nat} {c : Char} (h : c ∈ ofNat n) : c.isDigit :=
  Nat.isDigit_of_mem_toDigits (by decide) (by decide) h

/-- One text occurs in another exactly when it is an infix of it. -/
theorem holds_iff {t part : Text} : t.holds part = true ↔ part <:+: t := by
  induction t with
  | nil => simp [holds]
  | cons c t ih => simp [holds, ih, List.infix_cons_iff]

end Text

end LiteralAudit
