import LiteralAudit.Path.Letters
import Mathlib.Data.List.Basic

/-!
# Paths in messages

Read letter by letter, a path is taken apart without loss. A path that is the UTF-8 form of a text
has the characters of the text as its letters, so this text is what a message shows. Of other paths
a message shows less: all their strays look the same in it.
-/

namespace LiteralAudit.Path

/-! ## The first letter -/

theorem firstChar?_append (c : Char) (rest : Path) :
    firstChar? (String.utf8EncodeChar c ++ rest) = some c := by
  have hshort : (String.utf8EncodeChar c).length ≤ 4 := by
    rw [String.length_utf8EncodeChar]
    exact c.utf8Size_le_four
  rw [firstChar?, List.take_append, List.take_of_length_le hshort, List.toByteArray_append]
  exact ByteArray.utf8DecodeChar?_utf8EncodeChar_append

theorem exists_of_firstChar? {p : Path} {c : Char} (h : firstChar? p = some c) :
    ∃ rest, p = String.utf8EncodeChar c ++ rest := by
  obtain ⟨behind, hbytes⟩ := ByteArray.exists_of_utf8DecodeChar?_eq_some h
  have hfront : p.take 4 = String.utf8EncodeChar c ++ behind.data.toList := by
    have hdata := congrArg (fun bytes => bytes.data.toList) hbytes
    simpa using hdata
  refine ⟨behind.data.toList ++ p.drop 4, ?_⟩
  rw [← List.append_assoc, ← hfront, List.take_append_drop]

theorem lettersFrom_eq_drop (n : Nat) (p : Path) : lettersFrom n p = letters (p.drop n) := by
  induction p generalizing n with
  | nil => simp [letters, lettersFrom]
  | cons b rest ih =>
    cases n with
    | zero => rfl
    | succ n => exact ih n

theorem letters_append (c : Char) (rest : Path) :
    letters (String.utf8EncodeChar c ++ rest) = .char c :: letters rest := by
  have hfirst := firstChar?_append c rest
  have hlength : (String.utf8EncodeChar c).length = c.utf8Size := String.length_utf8EncodeChar c
  obtain ⟨b, bytes, hbytes⟩ := List.exists_cons_of_ne_nil (@String.utf8EncodeChar_ne_nil c)
  rw [hbytes, List.length_cons] at hlength
  rw [hbytes, List.cons_append] at hfirst ⊢
  rw [letters, lettersFrom, hfirst]
  simp only
  rw [lettersFrom_eq_drop, ← hlength, Nat.add_sub_cancel, List.drop_left]

/-- Strays are at least one byte. -/
theorem strayLength_pos (p : Path) : 0 < strayLength p := by
  unfold strayLength
  split
  · split
    · decide
    · split <;> decide
  · decide

theorem letters_of_firstChar?_eq_none {p : Path} (hne : p ≠ []) (h : firstChar? p = none) :
    letters p = .stray (p.take (strayLength p)) :: letters (p.drop (strayLength p)) := by
  obtain ⟨b, rest, rfl⟩ := List.exists_cons_of_ne_nil hne
  obtain ⟨n, hn⟩ := Nat.exists_eq_add_one.2 (strayLength_pos (b :: rest))
  rw [letters, lettersFrom, h]
  simp only [hn, Nat.add_sub_cancel, lettersFrom_eq_drop, List.drop_succ_cons]

/-! ## All letters -/

/-- The letters are all that there is in a path. -/
theorem flatMap_bytes_letters (p : Path) : p.letters.flatMap Letter.bytes = p := by
  induction hlength : p.length using Nat.strongRecOn generalizing p with
  | ind n ih =>
    by_cases hne : p = []
    · subst hne
      rfl
    cases hfirst : firstChar? p with
    | some c =>
      obtain ⟨rest, rfl⟩ := exists_of_firstChar? hfirst
      have hpos : 0 < (String.utf8EncodeChar c).length := by
        rw [String.length_utf8EncodeChar]
        exact c.utf8Size_pos
      rw [letters_append, List.flatMap_cons, ih rest.length ?_ rest rfl]
      · rfl
      · rw [← hlength, List.length_append]
        omega
    | none =>
      have hpos := strayLength_pos p
      have hlt : (p.drop (strayLength p)).length < n := by
        rw [List.length_drop, hlength]
        have := List.length_pos_iff.2 hne
        omega
      rw [letters_of_firstChar?_eq_none hne hfirst, List.flatMap_cons, ih _ hlt _ rfl]
      exact List.take_append_drop _ _

theorem letters_ofText (t : Text) : letters (ofText t) = t.map .char := by
  induction t with
  | nil => rfl
  | cons c t ih =>
    rw [List.map_cons, ← ih, ← letters_append]
    rfl

/-- A message shows the text whose form a path is. -/
theorem shown_ofText (t : Text) : (ofText t).shown = t := by
  rw [shown, letters_ofText, List.map_map]
  exact List.map_id t

theorem ofText_injective : Function.Injective ofText := by
  intro t u h
  rw [← shown_ofText t, h, shown_ofText]

/-- A path that is the UTF-8 form of a text. -/
def IsText (p : Path) : Prop := ∃ t, p = ofText t

/-- The byte that ends a line. -/
def newline : UInt8 := 10

/-- Only the byte that ends a line is shown as its end. -/
theorem newline_notMem_shown {p : Path} (h : newline ∉ p) : '\n' ∉ p.shown := by
  intro hshown
  obtain ⟨letter, hletter, hnewline⟩ := List.mem_map.1 hshown
  apply h
  rw [← flatMap_bytes_letters p]
  refine List.mem_flatMap.2 ⟨letter, hletter, ?_⟩
  cases letter with
  | char c =>
    cases hnewline
    decide
  | stray bytes =>
    have hmark : Letter.strayMark ≠ '\n' := by decide
    exact absurd hnewline hmark

end LiteralAudit.Path
