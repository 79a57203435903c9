import LiteralAudit.Proofs.Json.Values

/-!
# Whole numbers

A numeral is read as a whole number without a sign only if it has neither a sign nor a point
nor an exponent and all of its digits fit. Then it ends where its digits end, and in front of
anything else that does not go on with a numeral the same digits are read as the same number.
-/

namespace LiteralAudit.Json

variable {minus : Bool} {significand left k : Nat} {power : Int} {text rest : Text} {n : Number}

/-! ## Real numbers -/

/-- A number that a numeral with a point or an exponent stands for. -/
def Number.IsReal (n : Number) : Prop := ∃ minus magnitude, n = .real minus magnitude

theorem not_isReal_natural (k : Nat) : ¬ (Number.natural k).IsReal := by
  rintro ⟨_, _, heq⟩
  cases heq

theorem isReal_of_finishReal (h : finishReal minus significand power text = .ok (n, rest)) :
    n.IsReal := by
  unfold finishReal at h
  split at h
  · cases h
    exact ⟨_, _, rfl⟩
  · cases h

theorem isReal_of_exponent (h : exponent minus significand power text = .ok (n, rest)) :
    n.IsReal := by
  unfold exponent at h
  split at h
  split at h
  · cases h
  split at h
  split at h
  · split at h
    · cases h
    · cases h
      exact ⟨_, _, rfl⟩
  · exact isReal_of_finishReal h

theorem isReal_of_fraction (h : fraction minus significand power text = .ok (n, rest)) :
    n.IsReal := by
  unfold fraction at h
  split at h
  · cases h
  simp only at h
  split at h
  · split at h
    · exact isReal_of_exponent h
    · exact isReal_of_finishReal h
  · exact isReal_of_finishReal h

/-! ## Whole numbers -/

/-- Behind the digits of a whole number the text does not go on with its numeral. -/
theorem afterWhole_eq_natural
    (h : afterWhole minus significand left text = .ok (.natural k, rest)) :
    minus = false ∧ left = 0 ∧ significand = k ∧ text = rest ∧
      ∀ c t, text = c :: t → c ≠ '.' ∧ c ≠ 'e' ∧ c ≠ 'E' := by
  -- what is made of the digits where nothing follows them
  have hwhole : ∀ {t : Text},
      (if 0 < left then finishReal minus significand left t
        else if minus = false then .ok (.natural significand, t)
        else if 0 < significand ∧ significand ≤ naturalBound / 2 then
          .ok (.negative significand, t)
        else finishReal true significand 0 t) = .ok (.natural k, rest) →
      minus = false ∧ left = 0 ∧ significand = k ∧ t = rest := by
    intro t h
    split at h
    · exact absurd (isReal_of_finishReal h) (not_isReal_natural k)
    next hleft =>
    split at h
    · next hminus =>
      cases h
      exact ⟨hminus, Nat.eq_zero_of_not_pos hleft, rfl, rfl⟩
    split at h
    · cases h
    · exact absurd (isReal_of_finishReal h) (not_isReal_natural k)
  unfold afterWhole at h
  cases text with
  | nil =>
    obtain ⟨hminus, hleft, hvalue, hrest⟩ := hwhole h
    exact ⟨hminus, hleft, hvalue, hrest, by simp⟩
  | cons c t =>
    simp only at h
    split at h
    · exact absurd (isReal_of_fraction h) (not_isReal_natural k)
    next hpoint =>
    split at h
    · exact absurd (isReal_of_exponent h) (not_isReal_natural k)
    next hletter =>
    obtain ⟨hminus, hleft, hvalue, hrest⟩ := hwhole h
    refine ⟨hminus, hleft, hvalue, hrest, ?_⟩
    rintro _ _ ⟨⟩
    exact ⟨hpoint, not_or.1 hletter⟩

/-- No digit is left behind the digits at the front of a text. -/
theorem isDigit_of_afterDigits {c : Char} (h : afterDigits text = c :: rest) :
    c.isDigit = false := by
  have hhead := List.head?_dropWhile_not Char.isDigit text
  rw [afterDigits] at h
  rw [h] at hhead
  simpa using hhead

/-- A whole number is told by its digits, whatever ends them. -/
theorem exists_digits_of_number (h : number minus text = .ok (.natural k, rest)) :
    minus = false ∧ EndsNumeral rest ∧ ∃ digits, text = digits ++ rest ∧
      ∀ behind, EndsNumeral behind →
        number false (digits ++ behind) = .ok (.natural k, behind) := by
  -- whether or not there is only a zero, the rest is what follows the digits at the front
  have hread : ∀ {c : Char} {digits : Text} {significand left : Nat},
      (∀ d ∈ c :: digits, d.isDigit) → (c = '0' → digits = []) →
      appendDigits naturalBound 0 (c :: digits) = (significand, left) →
      text = c :: digits ++ afterDigits text →
      afterWhole minus significand left (afterDigits text) = .ok (.natural k, rest) →
      minus = false ∧ EndsNumeral rest ∧ ∃ digits, text = digits ++ rest ∧
        ∀ behind, EndsNumeral behind →
          number false (digits ++ behind) = .ok (.natural k, behind) := by
    intro c digits significand left hdigits hzero hvalue htext hafter
    obtain ⟨hminus, rfl, rfl, hrest, hends⟩ := afterWhole_eq_natural hafter
    rw [hrest] at hends htext
    refine ⟨hminus, ?_, _, htext, fun behind => number_of_digits hdigits hzero hvalue⟩
    intro d t hd
    exact ⟨isDigit_of_afterDigits (hrest.trans hd), hends d t hd⟩
  unfold number at h
  split at h
  · cases h
  · next tail =>
    split at h
    · next hnone =>
      have hafter : afterDigits ('0' :: tail) = tail := by
        have hsplit : leadingDigits tail ++ afterDigits tail = tail :=
          List.takeWhile_append_dropWhile
        rw [List.isEmpty_iff.1 hnone] at hsplit
        exact hsplit
      rw [← hafter] at h
      exact @hread '0' [] 0 0 (List.forall_mem_singleton.2 rfl) (fun _ => rfl) rfl
        (by rw [hafter]; rfl) h
    · cases h
  · next c tail hzero =>
    split at h
    · next hc =>
      split at h
      next significand left hvalue =>
      have hleading : leadingDigits (c :: tail) = c :: leadingDigits tail :=
        List.takeWhile_cons_of_pos hc
      refine @hread c (leadingDigits tail) significand left ?_ ?_ (hleading ▸ hvalue) ?_ h
      · rw [← hleading]
        exact fun d hd => List.mem_takeWhile_imp hd
      · exact fun h => absurd h hzero
      · rw [← hleading]
        exact List.takeWhile_append_dropWhile.symm
    · cases h

end LiteralAudit.Json
