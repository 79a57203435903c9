import LiteralAudit.Path
import Mathlib.Data.List.Basic

/-!
# Climbing

A path is its anchor and the pieces behind it. Climbing cuts off the last piece that counts and
whatever is idle around it, so what is left is a shorter beginning of the path with the same
anchor. The directories above a path are therefore those to which climbing leads again and again,
and it comes to an end.
-/

namespace LiteralAudit.Path

/-! ## Pieces -/

theorem pieces_of_not_mem {p : Path} (h : slash ∉ p) : pieces p = [p] := by
  induction p with
  | nil => rfl
  | cons c p ih =>
    rw [List.mem_cons, not_or] at h
    rw [pieces, if_neg (Ne.symm h.1), ih h.2]

theorem pieces_append_slash {p : Path} (h : slash ∉ p) (rest : Path) :
    pieces (p ++ slash :: rest) = p :: pieces rest := by
  induction p with
  | nil => rfl
  | cons c p ih =>
    rw [List.mem_cons, not_or] at h
    rw [List.cons_append, pieces, if_neg (Ne.symm h.1), ih h.2]

theorem slash_not_mem_of_mem_pieces {p piece : Path} (h : piece ∈ pieces p) : slash ∉ piece := by
  induction p generalizing piece with
  | nil =>
    obtain rfl := List.mem_singleton.1 h
    exact List.not_mem_nil
  | cons c p ih =>
    rw [pieces] at h
    split at h
    · rcases List.mem_cons.1 h with rfl | h
      · exact List.not_mem_nil
      · exact ih h
    · next hc =>
      cases hpieces : pieces p with
      | nil => exact absurd hpieces (pieces_ne_nil p)
      | cons first others =>
        rw [hpieces] at h ih
        rcases List.mem_cons.1 h with rfl | h
        · rw [List.mem_cons, not_or]
          exact ⟨Ne.symm hc, ih (List.mem_cons_self ..)⟩
        · exact ih (List.mem_cons_of_mem _ h)

theorem ofPieces_append {front behind : List Path} (hfront : front ≠ []) (hbehind : behind ≠ []) :
    ofPieces (front ++ behind) = ofPieces front ++ slash :: ofPieces behind := by
  obtain ⟨next, behind, rfl⟩ := List.exists_cons_of_ne_nil hbehind
  induction front with
  | nil => exact absurd rfl hfront
  | cons piece front ih =>
    cases front with
    | nil => simp [ofPieces, List.intercalate_cons_cons]
    | cons other front =>
      have hrest := ih (List.cons_ne_nil _ _)
      simp only [ofPieces, List.cons_append, List.intercalate_cons_cons] at hrest ⊢
      rw [hrest]
      simp

/-- Pieces without slashes are found again between the slashes. -/
theorem pieces_ofPieces {ps : List Path} (h : ∀ piece ∈ ps, slash ∉ piece) (hne : ps ≠ []) :
    pieces (ofPieces ps) = ps := by
  induction ps with
  | nil => exact absurd rfl hne
  | cons piece ps ih =>
    have hpiece := h piece (List.mem_cons_self ..)
    by_cases hps : ps = []
    · subst hps
      simpa [ofPieces] using pieces_of_not_mem hpiece
    · have happend := ofPieces_append (List.cons_ne_nil piece []) hps
      have hfirst : ofPieces [piece] = piece := by simp [ofPieces]
      rw [List.singleton_append, hfirst] at happend
      rw [happend, pieces_append_slash hpiece,
        ih (fun other hother => h other (List.mem_cons_of_mem _ hother)) hps]

/-! ## Anchors and bodies -/

/-- There are three anchors. -/
theorem anchor_cases (p : Path) : p.anchor = [slash] ∨ p.anchor = [dot] ∨ p.anchor = [] := by
  cases p with
  | nil => simp [anchor]
  | cons first rest =>
    rw [anchor]
    split
    · simp
    · split <;> simp

theorem anchor_anchor (p : Path) : anchor p.anchor = p.anchor := by
  rcases anchor_cases p with h | h | h <;> rw [h] <;> rfl

/-- What stands behind a slash is no part of the anchor. -/
theorem anchor_append_slash {q : Path} (h : q ≠ []) (rest : Path) :
    anchor (q ++ slash :: rest) = anchor q := by
  obtain ⟨first, behind, rfl⟩ := List.exists_cons_of_ne_nil h
  cases behind with
  | nil => simp [anchor]
  | cons second behind => simp [anchor]

/-- A path begins with its anchor. -/
theorem anchor_append_drop (p : Path) : p.anchor ++ p.drop p.anchor.length = p := by
  cases p with
  | nil => rfl
  | cons first rest =>
    rw [anchor]
    split
    · next hslash =>
      rw [hslash]
      rfl
    · split
      · next hdot =>
        rw [hdot.1]
        rfl
      · rfl

/-- The path with the same anchor and another body. -/
def withBody (p : Path) (outer : List Path) : Path := p.anchor ++ ofPieces outer.reverse

theorem withBody_nil (p : Path) : p.withBody [] = p.anchor := by
  rw [withBody, List.reverse_nil]
  exact List.append_nil _

theorem withBody_body (p : Path) : p.withBody p.body = p := by
  rw [withBody, body, List.reverse_reverse, ofPieces_pieces, anchor_append_drop]

/-- Where pieces are cut off at the end of a path, there is a slash. -/
theorem withBody_append_slash {p : Path} {inner outer : List Path} (hbody : p.body = inner ++ outer)
    (hinner : inner ≠ []) (houter : outer ≠ []) :
    p = p.withBody outer ++ slash :: ofPieces inner.reverse := by
  have hpath := withBody_body p
  rw [hbody, withBody, List.reverse_append, ofPieces_append (by simpa) (by simpa),
    ← List.append_assoc] at hpath
  exact hpath.symm

theorem anchor_withBody {p : Path} {outer : List Path} (h : outer <:+ p.body) :
    (p.withBody outer).anchor = p.anchor := by
  obtain ⟨inner, hbody⟩ := h
  by_cases hinner : inner = []
  · rw [hinner, List.nil_append] at hbody
    rw [hbody, withBody_body]
  by_cases houter : outer = []
  · rw [houter, withBody_nil, anchor_anchor]
  have hpath := withBody_append_slash hbody.symm hinner houter
  have hne : p.withBody outer ≠ [] := by
    intro hnil
    have hanchor : p.anchor = [] := (List.append_eq_nil_iff.1 hnil).1
    -- the path would begin with a slash
    rw [hpath, hnil] at hanchor
    cases hanchor
  conv_rhs => rw [hpath]
  exact (anchor_append_slash hne _).symm

theorem drop_anchor_withBody {p : Path} {outer : List Path} (h : outer <:+ p.body) :
    (p.withBody outer).drop (p.withBody outer).anchor.length = ofPieces outer.reverse := by
  rw [anchor_withBody h, withBody, List.drop_left]

theorem body_withBody {p : Path} {outer : List Path} (h : outer <:+ p.body) (hne : outer ≠ []) :
    (p.withBody outer).body = outer := by
  have hslash : ∀ piece ∈ outer.reverse, slash ∉ piece := by
    intro piece hpiece
    have hmem : piece ∈ p.body := h.subset (List.mem_reverse.1 hpiece)
    exact slash_not_mem_of_mem_pieces (List.mem_reverse.1 hmem)
  rw [body, drop_anchor_withBody h, pieces_ofPieces hslash (by simpa), List.reverse_reverse]

theorem withBody_withBody {p : Path} {outer : List Path} (h : outer <:+ p.body) :
    (p.withBody outer).withBody = p.withBody := by
  funext other
  rw [withBody, anchor_withBody h, withBody]

/-! ## One step -/

theorem climb_dropWhile (outer : List Path) : climb (outer.dropWhile isIdle) = climb outer := by
  induction outer with
  | nil => rfl
  | cons piece outer ih =>
    rw [List.dropWhile_cons]
    by_cases hidle : isIdle piece
    · rw [if_pos hidle, climb, if_pos hidle, ih]
    · rw [if_neg hidle]

/-- From the first body that climbing leads to, it leads to the others. -/
theorem of_climb_eq_cons {pieces outer : List Path} {rest : List (List Path)}
    (h : climb pieces = outer :: rest) :
    outer <:+ pieces ∧ outer.length < pieces.length ∧ rest = climb outer := by
  induction pieces with
  | nil => cases h
  | cons piece pieces ih =>
    rw [climb] at h
    split at h
    · obtain ⟨hsuffix, hlength, hrest⟩ := ih h
      exact ⟨hsuffix.trans (List.suffix_cons _ _), Nat.lt_succ_of_lt hlength, hrest⟩
    · cases h
      have hsuffix := List.dropWhile_suffix (l := pieces) isIdle
      exact ⟨hsuffix.trans (List.suffix_cons _ _), Nat.lt_succ_of_le hsuffix.length_le,
        (climb_dropWhile pieces).symm⟩

theorem climb_body_withBody {p : Path} {outer : List Path} (h : outer <:+ p.body) :
    climb (p.withBody outer).body = climb outer := by
  by_cases hne : outer = []
  · subst hne
    rw [body, drop_anchor_withBody h]
    rfl
  · rw [body_withBody h hne]

/-- The parent of a path has the first body that climbing leads to. -/
theorem parent?_eq (p : Path) :
    parent? p =
      match climb p.body with
      | outer :: _ => some (p.withBody outer)
      | [] => if p.anchor = [dot] then some [] else none := by
  unfold parent?
  induction p.body with
  | nil => rfl
  | cons piece pieces ih =>
    rw [List.dropWhile_cons, climb]
    by_cases hidle : isIdle piece
    · rw [if_pos hidle, if_pos hidle]
      exact ih
    · rw [if_neg hidle, if_neg hidle]
      rfl

/-- The directories above a path are its parent and those above the parent. -/
theorem ancestors_eq (p : Path) :
    ancestors p =
      p :: match parent? p with
        | none => []
        | some q => ancestors q := by
  have hancestors : ∀ q : Path, ancestors q =
      q :: ((climb q.body).map q.withBody ++ if q.anchor = [dot] then [[]] else []) :=
    fun _ => rfl
  rw [parent?_eq, hancestors]
  cases hclimb : climb p.body with
  | nil =>
    by_cases hanchor : p.anchor = [dot]
    · simp only [if_pos hanchor]
      rfl
    · simp only [if_neg hanchor]
      rfl
  | cons outer rest =>
    obtain ⟨hsuffix, -, rfl⟩ := of_climb_eq_cons hclimb
    simp only
    rw [hancestors (p.withBody outer), anchor_withBody hsuffix, climb_body_withBody hsuffix,
      withBody_withBody hsuffix]
    rfl

/-- What is left after a step is shorter. -/
theorem length_lt_of_parent? {p q : Path} (h : parent? p = some q) : q.length < p.length := by
  rw [parent?_eq] at h
  cases hclimb : climb p.body with
  | nil =>
    simp only [hclimb] at h
    split at h
    · next hanchor =>
      cases h
      refine List.length_pos_iff.2 ?_
      rintro rfl
      cases hanchor
    · cases h
  | cons outer rest =>
    obtain ⟨⟨inner, hbody⟩, hlength, -⟩ := of_climb_eq_cons hclimb
    simp only [hclimb] at h
    cases h
    have hinner : inner ≠ [] := by
      rintro rfl
      rw [← hbody] at hlength
      exact absurd hlength (Nat.lt_irrefl _)
    by_cases houter : outer = []
    · -- behind the anchor there is a piece that counts
      have hbehind : p.drop p.anchor.length ≠ [] := by
        intro hnil
        rw [body, hnil] at hclimb
        cases hclimb
      have hpath := congrArg List.length (anchor_append_drop p)
      rw [List.length_append] at hpath
      have hpos := List.length_pos_iff.2 hbehind
      rw [houter, withBody_nil]
      omega
    · have hpath := congrArg List.length (withBody_append_slash hbody.symm hinner houter)
      rw [List.length_append, List.length_cons] at hpath
      omega

/-! ## Any number of steps -/

/-- What holds of a path if it holds of its parent holds of all paths. -/
theorem climb_induction {motive : Path → Prop}
    (step : ∀ p, (∀ q, parent? p = some q → motive q) → motive p) (p : Path) : motive p :=
  step p fun q _ => climb_induction step q
termination_by p.length
decreasing_by
  exact length_lt_of_parent? ‹_›

/-- The path after so many steps up, if there are so many. -/
def rung (p : Path) : Nat → Option Path
  | 0 => some p
  | k + 1 => (rung p k).bind parent?

/-- The first of the steps may be taken apart from the others. -/
theorem rung_succ (p : Path) (k : Nat) :
    rung p (k + 1) = (parent? p).bind fun q => rung q k := by
  induction k with
  | zero =>
    show (some p).bind parent? = (parent? p).bind some
    rw [Option.bind_some, Option.bind_fun_some]
  | succ k ih =>
    rw [rung, ih, Option.bind_assoc]
    rfl

/-- There are no more steps than the path has bytes. -/
theorem length_add_le_of_rung {p d : Path} {k : Nat} (h : rung p k = some d) :
    d.length + k ≤ p.length := by
  induction k generalizing d with
  | zero =>
    cases h
    exact Nat.le_refl _
  | succ k ih =>
    obtain ⟨inner, hinner, hparent⟩ := Option.bind_eq_some_iff.1 h
    have hbefore := ih hinner
    have hstep := length_lt_of_parent? hparent
    omega

end LiteralAudit.Path
