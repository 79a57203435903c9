import LiteralAudit.Json.Skim
import LiteralAudit.Proofs.Json.Grammar

/-!
# Values passed over

Reading a value, the machine comes from any stack of open brackets to the place behind a
value in the same brackets, and it does not look at what stands there unless a numeral may
go on. So with no bracket open it stops at the end of the value, whatever the value is and
whatever comes next.
-/

namespace LiteralAudit.Json.Skim

variable {stack : List Bracket}

/-! ## One step -/

theorem run_go {place : Place} (next : Place) {stack' : List Bracket} {c : Char}
    (h : move place stack c = .go next stack') (rest : Text) :
    run place stack (c :: rest) = run next stack' rest := by
  rw [run, h]

/-- With no bracket open there is nothing left to do behind a value. -/
theorem run_closed_nil (t : Text) : run .closed [] t = .ok t := by
  cases t <;> rfl

/-- Behind the last character of a value the machine is behind a value. -/
theorem run_ended {place : Place} {outer : List Bracket} {c : Char}
    (h : move place stack c = ended outer) (rest : Text) :
    run place stack (c :: rest) = run .closed outer rest := by
  rw [run, h]
  cases outer with
  | nil => exact (run_closed_nil rest).symm
  | cons b outer => rfl

/-- White space is passed over where it makes no difference. -/
theorem run_space {place : Place}
    (h : ∀ c, isSpace c → move place stack c = .go place stack) {space : Text}
    (hspace : IsSpace space) (t : Text) :
    run place stack (space ++ t) = run place stack t := by
  induction space with
  | nil => rfl
  | cons c space ih =>
    rw [List.cons_append, run_go _ (h c (hspace c (List.mem_cons_self ..)))]
    exact ih fun d hd => hspace d (List.mem_cons_of_mem _ hd)

theorem move_value_space {c : Char} (h : isSpace c) :
    move .value stack c = .go .value stack := if_pos h

theorem move_key_space {c : Char} (h : isSpace c) : move .key stack c = .go .key stack := if_pos h

theorem move_colon_space {c : Char} (h : isSpace c) :
    move .colon stack c = .go .colon stack := if_pos h

theorem move_opened_space {c : Char} (h : isSpace c) :
    move .opened stack c = .go .opened stack := if_pos h

theorem move_closed_space (b : Bracket) {c : Char} (h : isSpace c) :
    move .closed (b :: stack) c = .go .closed (b :: stack) := by
  cases b <;> exact if_pos h

/-! ## Words -/

theorem run_word {left : List Char} (h : left ≠ []) (rest : Text) :
    run (.word left) stack (left ++ rest) = run .closed stack rest := by
  induction left with
  | nil => exact absurd rfl h
  | cons letter left ih =>
    cases left with
    | nil => exact run_ended (by simp [move]) rest
    | cons next left =>
      have hmove : move (.word (letter :: next :: left)) stack letter =
          .go (.word (next :: left)) stack := by simp [move]
      rw [List.cons_append, run_go _ hmove]
      exact ih (List.cons_ne_nil _ _)

/-! ## Strings -/

/-- Behind a string that is a key comes a colon, and any other string is a value. -/
def behindString (isKey : Bool) : Place := if isKey then .colon else .closed

theorem run_quote (isKey : Bool) (rest : Text) :
    run (.string isKey) stack ('"' :: rest) = run (behindString isKey) stack rest := by
  cases isKey with
  | true => exact run_go _ rfl rest
  | false => exact run_ended rfl rest

theorem run_hexDigits (isKey : Bool) {a b c d : Char} {n : Nat} (h : hexUnit? a b c d = some n)
    (rest : Text) :
    run (.hex isKey 0) stack (a :: b :: c :: d :: rest) = run (.string isKey) stack rest := by
  simp only [hexUnit?, Option.bind_eq_bind, Option.bind_eq_some_iff] at h
  obtain ⟨i, ha, j, hb, k, hc, l, hd, -⟩ := h
  have hmove : ∀ (read : Nat) {c : Char} {n : Nat}, hexDigit? c = some n →
      move (.hex isKey read) stack c =
        .go (if read = 3 then .string isKey else .hex isKey (read + 1)) stack := by
    intro read c n h
    exact if_pos (by rw [h]; rfl)
  exact (run_go _ (hmove 0 ha) _).trans ((run_go _ (hmove 1 hb) _).trans
    ((run_go _ (hmove 2 hc) _).trans (run_go _ (hmove 3 hd) _)))

theorem run_hexUnit (isKey : Bool) {digits : Text} {n : Nat} (h : IsHexUnit digits n)
    (rest : Text) :
    run (.hex isKey 0) stack (digits ++ rest) = run (.string isKey) stack rest := by
  obtain ⟨a, b, c, d, rfl, hunit⟩ := h.exists_digits
  exact run_hexDigits isKey hunit rest

theorem run_string (isKey : Bool) {body : Text} (h : IsStringBody body) (rest : Text) :
    run (.string isKey) stack (body ++ '"' :: rest) = run (behindString isKey) stack rest := by
  have hescape : ∀ t, run (.string isKey) stack ('\\' :: t) = run (.escape isKey) stack t :=
    run_go _ rfl
  induction h with
  | nil => exact run_quote isKey rest
  | @plain c t hq hb hc _ ih =>
    have hcontrol : isControl c = false := decide_eq_false (Nat.not_lt.2 hc)
    have hmove : move (.string isKey) stack c = .go (.string isKey) stack := by
      simp [move, hq, hb, hcontrol]
    exact (run_go _ hmove _).trans ih
  | @short letter c t h _ ih =>
    have hletters : ∀ escape ∈ shortEscapes, (shortEscape? escape.1).isSome = true := by decide
    have hmove : move (.escape isKey) stack letter = .go (.string isKey) stack :=
      if_pos (hletters _ h)
    exact (hescape _).trans ((run_go _ hmove _).trans ih)
  | @unit digits t n h _ ih =>
    rw [List.cons_append, hescape, List.cons_append, run_go (.hex isKey 0) rfl,
      List.append_assoc, run_hexUnit isKey h]
    exact ih

/-! ## Numerals -/

/-- The places at which a numeral may end. -/
def mayEnd : List Place := [.zero, .whole, .fraction, .exponent]

/-- What does not go on with the numeral is looked at again behind it. -/
theorem run_of_endsNumeral {place : Place} (h : place ∈ mayEnd) {behind : Text}
    (hbehind : EndsNumeral behind) : run place stack behind = run .closed stack behind := by
  simp only [mayEnd, List.mem_cons, List.not_mem_nil, or_false] at h
  cases behind with
  | nil => rcases h with rfl | rfl | rfl | rfl <;> rfl
  | cons c rest =>
    obtain ⟨hdigit, hpoint, he, hE⟩ := hbehind c rest rfl
    have hmove : move place stack c = move .closed stack c := by
      rcases h with rfl | rfl | rfl | rfl <;>
        simp [move, afterNumeral, hdigit, hpoint, he, hE]
    rw [run, run, hmove]
    rcases h with rfl | rfl | rfl | rfl <;> rfl

theorem run_digits {place : Place}
    (h : ∀ c : Char, c.isDigit → move place stack c = .go place stack) {digits : Text}
    (hdigits : ∀ c ∈ digits, c.isDigit) (t : Text) :
    run place stack (digits ++ t) = run place stack t := by
  induction digits with
  | nil => rfl
  | cons c digits ih =>
    rw [List.cons_append, run_go _ (h c (hdigits c (List.mem_cons_self ..)))]
    exact ih fun d hd => hdigits d (List.mem_cons_of_mem _ hd)

/-- The first of the digits that have to be there leads to the place for further ones. -/
theorem run_areDigits {first place : Place}
    (hfirst : ∀ c : Char, c.isDigit → move first stack c = .go place stack)
    (hplace : ∀ c : Char, c.isDigit → move place stack c = .go place stack) {digits : Text}
    (h : AreDigits digits) (t : Text) :
    run first stack (digits ++ t) = run place stack t := by
  obtain ⟨hne, hdigits⟩ := h
  cases digits with
  | nil => exact absurd rfl hne
  | cons c digits =>
    rw [List.cons_append, run_go _ (hfirst c (hdigits c (List.mem_cons_self ..)))]
    exact run_digits hplace (fun d hd => hdigits d (List.mem_cons_of_mem _ hd)) t

theorem move_whole_digit {c : Char} (hc : c.isDigit) :
    move .whole stack c = .go .whole stack := if_pos hc

theorem move_point_digit {c : Char} (hc : c.isDigit) :
    move .point stack c = .go .fraction stack := if_pos hc

theorem move_fraction_digit {c : Char} (hc : c.isDigit) :
    move .fraction stack c = .go .fraction stack := if_pos hc

theorem move_exponentSign_digit {c : Char} (hc : c.isDigit) :
    move .exponentSign stack c = .go .exponent stack := if_pos hc

theorem move_exponent_digit {c : Char} (hc : c.isDigit) :
    move .exponent stack c = .go .exponent stack := if_pos hc

theorem move_exponentLetter_digit {c : Char} (hc : c.isDigit) :
    move .exponentLetter stack c = .go .exponent stack := by
  have hplus : c ≠ '+' := by
    rintro rfl
    cases hc
  have hminus : c ≠ '-' := by
    rintro rfl
    cases hc
  simp [move, requireDigit, hplus, hminus, hc]

theorem run_exponent {place : Place} (h : place ∈ [.zero, .whole, .fraction]) {exponent : Text}
    (hexponent : IsExponent exponent) {behind : Text} (hbehind : EndsNumeral behind) :
    run place stack (exponent ++ behind) = run .closed stack behind := by
  simp only [List.mem_cons, List.not_mem_nil, or_false] at h
  have hdigits : ∀ c : Char, c.isDigit → move .exponent stack c = .go .exponent stack :=
    fun _ hc => move_exponent_digit hc
  have hend : run .exponent stack behind = run .closed stack behind :=
    run_of_endsNumeral (by decide) hbehind
  cases hexponent with
  | none => rcases h with rfl | rfl | rfl <;> exact run_of_endsNumeral (by decide) hbehind
  | @digits letter sign t hletter hsign ht =>
    have hmove : move place stack letter = .go .exponentLetter stack := by
      rcases h with rfl | rfl | rfl <;> rcases hletter with rfl | rfl <;> rfl
    rw [List.cons_append, run_go _ hmove, List.append_assoc, ← hend]
    simp only [List.mem_cons, List.not_mem_nil, or_false] at hsign
    rcases hsign with rfl | rfl | rfl
    · exact run_areDigits (fun _ hc => move_exponentLetter_digit hc) hdigits ht behind
    · rw [List.singleton_append, run_go .exponentSign rfl]
      exact run_areDigits (fun _ hc => move_exponentSign_digit hc) hdigits ht behind
    · rw [List.singleton_append, run_go .exponentSign rfl]
      exact run_areDigits (fun _ hc => move_exponentSign_digit hc) hdigits ht behind

/-- A fraction and an exponent behind the whole part. -/
theorem run_afterWhole {place : Place} (h : place = .zero ∨ place = .whole)
    {fraction exponent : Text} (hfraction : IsFraction fraction)
    (hexponent : IsExponent exponent) {behind : Text} (hbehind : EndsNumeral behind) :
    run place stack (fraction ++ (exponent ++ behind)) = run .closed stack behind := by
  cases hfraction with
  | none =>
    rcases h with rfl | rfl
    · exact run_exponent (by decide) hexponent hbehind
    · exact run_exponent (by decide) hexponent hbehind
  | @digits t ht =>
    have hmove : move place stack '.' = .go .point stack := by
      rcases h with rfl | rfl <;> rfl
    rw [List.cons_append, run_go _ hmove, run_areDigits (fun _ hc => move_point_digit hc)
      (fun _ hc => move_fraction_digit hc) ht]
    exact run_exponent (by decide) hexponent hbehind

/-- Behind a sign and at the start of a value the digits of the whole part lead to the same
place. -/
theorem run_magnitude {place : Place} (hzero : move place stack '0' = .go .zero stack)
    (hdigit : ∀ c : Char, c.isDigit → c ≠ '0' → move place stack c = .go .whole stack)
    {t : Text} (h : IsMagnitude t) {behind : Text} (hbehind : EndsNumeral behind) :
    run place stack (t ++ behind) = run .closed stack behind := by
  obtain @⟨whole, fraction, exponent, hwhole, hfraction, hexponent⟩ := h
  rw [List.append_assoc, List.append_assoc]
  cases hwhole with
  | zero =>
    rw [List.singleton_append, run_go _ hzero]
    exact run_afterWhole (.inl rfl) hfraction hexponent hbehind
  | digits hc hne ht =>
    rw [List.cons_append, run_go _ (hdigit _ hc hne),
      run_digits (fun _ hc => move_whole_digit hc) ht]
    exact run_afterWhole (.inr rfl) hfraction hexponent hbehind

/-- A digit begins a numeral and nothing else. -/
theorem move_value_digit {c : Char} (hc : c.isDigit) (hzero : c ≠ '0') :
    move .value stack c = .go .whole stack := by
  have hne : ∀ d : Char, d.isDigit = false → c ≠ d := by
    rintro d hd rfl
    rw [hc] at hd
    cases hd
  simp [move, startValue, isSpace_of_isDigit hc, hc, hzero, hne '"' rfl, hne '[' rfl, hne '\x7b' rfl,
    hne 'n' rfl, hne 't' rfl, hne 'f' rfl, hne '-' rfl]

theorem move_minus_digit {c : Char} (hc : c.isDigit) (hzero : c ≠ '0') :
    move .minus stack c = .go .whole stack := (if_neg hzero).trans (if_pos hc)

/-! ## Brackets -/

/-- Where the machine looks for the label of the next value in a bracket. -/
def labelPlace : Bracket → Place
  | .list => .value
  | .object => .key

theorem run_label {b : Bracket} {label : Text} (h : IsLabel b label) (t : Text) :
    run (labelPlace b) stack (label ++ t) = run .value stack t := by
  cases h with
  | list => rfl
  | @object body before after hbody hbefore hafter =>
    rw [labelPlace, List.cons_append, run_go (.string true) rfl,
      List.append_assoc, List.cons_append, run_string true hbody, behindString, if_pos rfl,
      List.append_assoc, List.cons_append, run_space (fun _ hc => move_colon_space hc) hbefore,
      run_go .value rfl]
    exact run_space (fun _ hc => move_value_space hc) hafter t

theorem run_labelPlace_space (b : Bracket) {space : Text} (h : IsSpace space) (t : Text) :
    run (labelPlace b) stack (space ++ t) = run (labelPlace b) stack t := by
  cases b with
  | list => exact run_space (fun _ hc => move_value_space hc) h t
  | object => exact run_space (fun _ hc => move_key_space hc) h t

/-- Behind an opening bracket, what begins an item is looked at as it is behind a comma. -/
theorem run_opened_item {b : Bracket} {label value : Text} (hlabel : IsLabel b label)
    (hvalue : IsValue value) (t : Text) :
    run .opened (b :: stack) (label ++ (value ++ t)) =
      run (labelPlace b) (b :: stack) (label ++ (value ++ t)) := by
  cases hlabel with
  | list =>
    obtain ⟨c, rest, rfl, hspace, hclosing⟩ := hvalue.begins
    have hmove : move .opened (.list :: stack) c = move .value (.list :: stack) c := by
      simp [move, hspace, hclosing]
    show run .opened (.list :: stack) (c :: (rest ++ t)) =
      run .value (.list :: stack) (c :: (rest ++ t))
    rw [run, run, hmove]
    rfl
  | object _ _ _ =>
    rw [List.cons_append, run_go (.string true) rfl,
      labelPlace, run_go (.string true) rfl]

theorem move_opened_closing (b : Bracket) :
    move .opened (b :: stack) b.closing = ended stack := by
  cases b <;> rfl

theorem move_closed_closing (b : Bracket) :
    move .closed (b :: stack) b.closing = ended stack := by
  cases b <;> rfl

theorem move_closed_comma (b : Bracket) :
    move .closed (b :: stack) ',' = .go (labelPlace b) (b :: stack) := by
  cases b <;> rfl

theorem move_value_opening (b : Bracket) :
    move .value stack b.opening = .go .opened (b :: stack) := by
  cases b <;> rfl

/-! ## Values -/

/-- What the machine makes of a part of a JSON text. A value has to be followed by
something that cannot go on with a numeral; the other parts end with a bracket. -/
def Passes : Part → Text → Prop
  | .value, t => ∀ stack behind, EndsNumeral behind →
      run .value stack (t ++ behind) = run .closed stack behind
  | .opened b, t => ∀ stack behind,
      run .opened (b :: stack) (t ++ behind) = run .closed stack behind
  | .behind b, t => ∀ stack behind,
      run .closed (b :: stack) (t ++ behind) = run .closed stack behind

theorem passes {part : Part} {t : Text} (h : IsPart part t) : Passes part t := by
  -- along the grammar; an inner value leaves the machine behind a value in its bracket
  induction h with
  | word h =>
    intro stack behind _
    simp only [List.mem_cons, List.not_mem_nil, or_false] at h
    rcases h with rfl | rfl | rfl
    · exact (run_go (.word "ull".toList) rfl _).trans (run_word (by decide) behind)
    · exact (run_go (.word "rue".toList) rfl _).trans (run_word (by decide) behind)
    · exact (run_go (.word "alse".toList) rfl _).trans (run_word (by decide) behind)
  | string h =>
    intro stack behind _
    rw [List.cons_append, run_go (.string false) rfl,
      List.append_assoc, List.singleton_append]
    exact run_string false h behind
  | magnitude h =>
    intro stack behind hbehind
    exact run_magnitude rfl (fun _ hc hne => move_value_digit hc hne) h hbehind
  | negative h =>
    intro stack behind hbehind
    rw [List.cons_append, run_go .minus rfl]
    exact run_magnitude rfl (fun _ hc hne => move_minus_digit hc hne) h hbehind
  | @bracket b rest _ ih =>
    intro stack behind _
    rw [List.cons_append, run_go _ (move_value_opening b)]
    exact ih stack behind
  | @empty b space hspace =>
    intro stack behind
    rw [List.append_assoc, run_space (fun _ hc => move_opened_space hc) hspace]
    exact run_ended (move_opened_closing b) behind
  | @first b space label value rest hspace hlabel hvalue hrest ihvalue ihrest =>
    intro stack behind
    simp only [List.append_assoc]
    rw [run_space (fun _ hc => move_opened_space hc) hspace, run_opened_item hlabel hvalue,
      run_label hlabel, ihvalue (b :: stack) _ (hrest.endsNumeral behind)]
    exact ihrest stack behind
  | @close b space hspace =>
    intro stack behind
    rw [List.append_assoc, run_space (fun _ hc => move_closed_space b hc) hspace]
    exact run_ended (move_closed_closing b) behind
  | @next b before after label value rest hbefore hafter hlabel _ hrest ihvalue ihrest =>
    intro stack behind
    simp only [List.append_assoc, List.cons_append]
    rw [run_space (fun _ hc => move_closed_space b hc) hbefore, run_go _ (move_closed_comma b),
      run_labelPlace_space b hafter, run_label hlabel,
      ihvalue (b :: stack) _ (hrest.endsNumeral behind)]
    exact ihrest stack behind

end LiteralAudit.Json.Skim

namespace LiteralAudit.Json

/-- A value is passed over by exactly its extent, with the white space in front of it. -/
theorem IsValue.skim {value : Text} (h : IsValue value) {space behind : Text}
    (hspace : IsSpace space) (hbehind : EndsNumeral behind) :
    skim (space ++ (value ++ behind)) = .ok behind := by
  have hvalue : Skim.Passes .value value := Skim.passes h
  rw [Json.skim, Skim.run_space (fun _ hc => Skim.move_value_space hc) hspace,
    hvalue [] behind hbehind, Skim.run_closed_nil]

end LiteralAudit.Json
