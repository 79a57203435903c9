import LiteralAudit.Proofs.Host

/-!
# A file where nothing was

A file that is made at a vacant place changes the look-ups that come to this place, and no
others: one that ends there finds the file, and one that wants to go on from there is told
that it is no directory.
-/

namespace LiteralAudit.FileTree

/-- How the answer to a look-up changes when a file is made at a vacant place. -/
inductive Gains (place : Place) :
    Except AccessFault Spot → Except AccessFault Spot → Prop where
  | same {answer : Except AccessFault Spot} (h : answer ≠ .ok (.vacant place)) :
      Gains place answer answer
  | made : Gains place (.ok (.vacant place)) (.ok (.present place))
  | blocked : Gains place (.error .missing) (.error .notDirectory)

variable {tree : FileTree} {place : Place} {intent : Intent}

/-! ## Look-ups that go on at links in two ways -/

section Follow

variable {atLink atLink' : Place → Path → List Path → Except AccessFault Spot}

theorem ne_nil_of_at?_eq_none (h : tree.at? place = none) : place ≠ [] := by
  rintro rfl
  cases h

theorem isDirectory_set_file (h : tree.at? place = none) (bytes : ByteArray) (other : Place) :
    (tree.set place (.file bytes)).isDirectory other = tree.isDirectory other := by
  by_cases heq : other = place
  · subst heq
    rw [isDirectory, isDirectory, at?_set_self _ (ne_nil_of_at?_eq_none h), h]
  · rw [isDirectory, isDirectory, at?_set_of_ne _ heq]

theorem bar?_set_file (h : tree.at? place = none) (bytes : ByteArray) (other : Place) :
    (tree.set place (.file bytes)).bar? other = tree.bar? other := by
  by_cases heq : other = place
  · subst heq
    rw [bar?, bar?, at?_set_self _ (ne_nil_of_at?_eq_none h), h]
  · rw [bar?, bar?, at?_set_of_ne _ heq]

theorem follow_set_file (h : tree.at? place = none) (bytes : ByteArray)
    (hlink : ∀ here target left,
      Gains place (atLink here target left) (atLink' here target left))
    (here : Place) (names : List Path) :
    Gains place (tree.follow intent atLink here names)
      ((tree.set place (.file bytes)).follow intent atLink' here names) := by
  induction names generalizing here with
  | nil => exact .same (by simp [follow])
  | cons name left ih =>
    rw [follow, follow, isDirectory_set_file h, bar?_set_file h]
    by_cases hempty : name = []
    · rw [if_pos hempty, if_pos hempty]
      exact ih here
    rw [if_neg hempty, if_neg hempty]
    cases tree.bar? here with
    | some fault => exact .same (by simp)
    | none =>
      simp only
      by_cases hidle : name = [Path.dot]
      · rw [if_pos hidle, if_pos hidle]
        exact ih here
      rw [if_neg hidle, if_neg hidle]
      by_cases hup : name = [Path.dot, Path.dot]
      · rw [if_pos hup, if_pos hup]
        exact ih here.dropLast
      rw [if_neg hup, if_neg hup]
      by_cases hcreate : intent = .create ∧ left = [[]]
      · rw [if_pos hcreate, if_pos hcreate]
        exact .same (by simp)
      rw [if_neg hcreate, if_neg hcreate]
      by_cases hgone : !tree.isDirectory here
      · rw [if_pos hgone, if_pos hgone]
        exact .same (by simp)
      rw [if_neg hgone, if_neg hgone]
      by_cases hlong : longestName < name.length
      · rw [if_pos hlong, if_pos hlong]
        exact .same (by simp)
      rw [if_neg hlong, if_neg hlong]
      by_cases heq : here ++ [name] = place
      · -- the look-up has come to the place
        rw [heq, h, at?_set_self _ (ne_nil_of_at?_eq_none h)]
        cases left with
        | nil => exact .made
        | cons next left => exact .blocked
      · rw [at?_set_of_ne _ heq]
        cases hat : tree.at? (here ++ [name]) with
        | none =>
          by_cases hleft : left = []
          · simp only [hleft, if_true]
            refine .same ?_
            intro hspot
            injection hspot with hspot
            injection hspot with hspot
            exact heq hspot
          · simp only [hleft, if_false]
            exact .same (by simp)
        | some entry =>
          cases entry with
          | link target => exact hlink here target left
          | file _ | locked _ _ | device _ =>
            cases left with
            | nil => exact .same (by simp)
            | cons _ _ => exact .same (by simp)
          | directory | closed _ | barred _ => exact ih (here ++ [name])

/-- What can be made is found to be vacant or present. -/
theorem follow_find_of_create {spot : Spot}
    (hlink : ∀ here target left, atLink here target left = .ok spot →
      atLink' here target left = .ok spot)
    {here : Place} {names : List Path} (h : tree.follow .create atLink here names = .ok spot) :
    tree.follow .find atLink' here names = .ok spot := by
  induction names generalizing here with
  | nil => exact h
  | cons name left ih =>
    rw [follow] at h ⊢
    have hfind : ¬ (Intent.find = .create ∧ left = [[]]) := by simp
    rw [if_neg hfind]
    split at h
    · next hempty =>
      rw [if_pos hempty]
      exact ih h
    next hempty =>
    rw [if_neg hempty]
    split at h
    · cases h
    split at h
    · next hidle =>
      rw [if_pos hidle]
      exact ih h
    next hidle =>
    rw [if_neg hidle]
    split at h
    · next hup =>
      rw [if_pos hup]
      exact ih h
    next hup =>
    rw [if_neg hup]
    split at h
    · cases h
    split at h
    · cases h
    next hgone =>
    rw [if_neg hgone]
    split at h
    · cases h
    next hlong =>
    rw [if_neg hlong]
    cases hat : tree.at? (here ++ [name]) with
    | none =>
      rw [hat] at h
      exact h
    | some entry =>
      rw [hat] at h
      cases entry with
      | link target => exact hlink here target left h
      | file _ | locked _ _ | device _ => exact h
      | directory | closed _ | barred _ => exact ih h

theorem at?_eq_none_of_follow
    (hlink : ∀ here target left, atLink here target left = .ok (.vacant place) →
      tree.at? place = none)
    {here : Place} {names : List Path}
    (h : tree.follow intent atLink here names = .ok (.vacant place)) :
    tree.at? place = none := by
  induction names generalizing here with
  | nil => cases h
  | cons name left ih =>
    rw [follow] at h
    split at h
    · exact ih h
    split at h
    · cases h
    split at h
    · exact ih h
    split at h
    · exact ih h
    split at h
    · cases h
    split at h
    · cases h
    split at h
    · cases h
    cases hat : tree.at? (here ++ [name]) with
    | none =>
      simp only [hat] at h
      split at h
      · cases h
        exact hat
      · cases h
    | some entry =>
      rw [hat] at h
      cases entry with
      | link target => exact hlink here target left h
      | file _ | locked _ _ | device _ =>
        simp only at h
        split at h <;> cases h
      | directory | closed _ | barred _ => exact ih h

end Follow

/-! ## Look-ups of paths -/

theorem followLinks_set_file (h : tree.at? place = none) (bytes : ByteArray) (links : Nat)
    (here : Place) (names : List Path) :
    Gains place (tree.followLinks intent links here names)
      ((tree.set place (.file bytes)).followLinks intent links here names) := by
  induction links generalizing here names with
  | zero => exact follow_set_file h bytes (fun _ _ _ => .same (by simp)) here names
  | succ links ih => exact follow_set_file h bytes (fun _ _ _ => ih _ _) here names

/-- A file that is made at a vacant place changes the look-up of a path only if it comes to
this place. -/
theorem locate_set_file (h : tree.at? place = none) (bytes : ByteArray) (here : Place)
    (p : Path) :
    Gains place (tree.locate intent here p)
      ((tree.set place (.file bytes)).locate intent here p) := by
  unfold locate
  by_cases hnul : Path.nul ∈ p
  · rw [if_pos hnul, if_pos hnul]
    exact .same (by simp)
  rw [if_neg hnul, if_neg hnul]
  by_cases hempty : p = []
  · rw [if_pos hempty, if_pos hempty]
    exact .same (by simp)
  rw [if_neg hempty, if_neg hempty]
  by_cases hlong : longestPath < p.length
  · rw [if_pos hlong, if_pos hlong]
    exact .same (by simp)
  rw [if_neg hlong, if_neg hlong]
  exact followLinks_set_file h bytes mostLinks (origin here p) (names p)

theorem locate_find_of_create {here : Place} {p : Path} {spot : Spot}
    (h : tree.locate .create here p = .ok spot) : tree.locate .find here p = .ok spot := by
  have hlinks : ∀ links here names, tree.followLinks .create links here names = .ok spot →
      tree.followLinks .find links here names = .ok spot := by
    intro links
    induction links with
    | zero =>
      intro here names
      exact follow_find_of_create fun _ _ _ hlink => by cases hlink
    | succ links ih =>
      intro here names
      exact follow_find_of_create fun _ _ _ => ih _ _
  unfold locate at h ⊢
  split at h
  · cases h
  · next hnul =>
    rw [if_neg hnul]
    split at h
    · cases h
    · next hempty =>
      rw [if_neg hempty]
      split at h
      · cases h
      · next hlong =>
        rw [if_neg hlong]
        exact hlinks _ _ _ h

theorem at?_eq_none_of_locate {here : Place} {p : Path}
    (h : tree.locate intent here p = .ok (.vacant place)) : tree.at? place = none := by
  have hlinks : ∀ links here names,
      tree.followLinks intent links here names = .ok (.vacant place) →
      tree.at? place = none := by
    intro links
    induction links with
    | zero =>
      intro here names
      exact at?_eq_none_of_follow fun _ _ _ hlink => by cases hlink
    | succ links ih =>
      intro here names
      exact at?_eq_none_of_follow fun _ _ _ => ih _ _
  unfold locate at h
  split at h
  · cases h
  split at h
  · cases h
  split at h
  · cases h
  exact hlinks _ _ _ h

/-! ## Requests -/

section Requests

variable {here : Place} {p : Path}

theorem isPresent_iff : tree.isPresent here p ↔ ∃ q, tree.locate .find here p = .ok (.present q) := by
  unfold isPresent
  split
  · next q h => simp [h]
  · next h => simpa using h

/-- What is there stays there. -/
theorem isPresent_set_file (h : tree.at? place = none) (bytes : ByteArray)
    (hpresent : tree.isPresent here p) :
    (tree.set place (.file bytes)).isPresent here p := by
  obtain ⟨q, hq⟩ := isPresent_iff.1 hpresent
  have hgains : Gains place (tree.locate .find here p) _ := locate_set_file h bytes here p
  rw [hq] at hgains
  generalize hafter : (tree.set place (.file bytes)).locate .find here p = after at hgains
  cases hgains
  exact isPresent_iff.2 ⟨q, hafter⟩

/-- A path that names something only now names what was made. -/
theorem locate_of_isPresent_set_file (h : tree.at? place = none) {bytes : ByteArray}
    (hpresent : (tree.set place (.file bytes)).isPresent here p)
    (habsent : ¬ tree.isPresent here p) :
    (tree.set place (.file bytes)).locate .find here p = .ok (.present place) := by
  obtain ⟨q, hq⟩ := isPresent_iff.1 hpresent
  have hgains : Gains place (tree.locate .find here p) _ := locate_set_file h bytes here p
  rw [hq] at hgains ⊢
  generalize hbefore : tree.locate .find here p = before at hgains
  cases hgains with
  | same _ => exact absurd (isPresent_iff.2 ⟨q, hbefore⟩) habsent
  | made => rfl

/-- The path that came to the vacant place names what was made. -/
theorem locate_set_file_self (h : tree.locate .find here p = .ok (.vacant place))
    (bytes : ByteArray) :
    (tree.set place (.file bytes)).locate .find here p = .ok (.present place) := by
  have hgains : Gains place (tree.locate .find here p) _ :=
    locate_set_file (at?_eq_none_of_locate h) bytes here p
  rw [h] at hgains
  generalize (tree.set place (.file bytes)).locate .find here p = after at hgains
  cases hgains with
  | same hne => exact absurd rfl hne
  | made => rfl

theorem read_of_locate {bytes : ByteArray} (h : tree.locate .find here p = .ok (.present place))
    (hat : tree.at? place = some (.file bytes)) : tree.read here p = .ok bytes := by
  rw [read, h]
  simp only [hat]

/-- The look-up of a path that does not name what was made ends as before, where it is as
before, unless it is stopped by what was made. -/
theorem locate_set_file_of_ne (h : tree.at? place = none) {bytes : ByteArray}
    (hother : (tree.set place (.file bytes)).locate .find here p ≠ .ok (.present place)) :
    ((tree.set place (.file bytes)).locate .find here p = tree.locate .find here p ∧
        ∀ q, tree.locate .find here p = .ok (.present q) →
          (tree.set place (.file bytes)).at? q = tree.at? q) ∨
      tree.locate .find here p = .error .missing ∧
        (tree.set place (.file bytes)).locate .find here p = .error .notDirectory := by
  have hgains : Gains place (tree.locate .find here p) _ := locate_set_file h bytes here p
  generalize (tree.set place (.file bytes)).locate .find here p = after at hgains hother ⊢
  generalize tree.locate .find here p = before at hgains ⊢
  cases hgains with
  | made => exact absurd rfl hother
  | blocked => exact .inr ⟨rfl, rfl⟩
  | same _ =>
    refine .inl ⟨rfl, ?_⟩
    rintro q rfl
    apply at?_set_of_ne
    rintro rfl
    exact hother rfl

/-- Of the paths that do not name what was made, only those that go on behind it are read in
another way than before. -/
theorem read_set_file (h : tree.at? place = none) {bytes : ByteArray}
    (hother : (tree.set place (.file bytes)).locate .find here p ≠ .ok (.present place)) :
    (tree.set place (.file bytes)).read here p = tree.read here p ∨
      tree.read here p = .error .missing ∧
        (tree.set place (.file bytes)).read here p = .error .notDirectory := by
  unfold read
  rcases locate_set_file_of_ne h hother with ⟨hlocate, hat⟩ | ⟨hbefore, hafter⟩
  · left
    rw [hlocate]
    split
    · rfl
    · rfl
    · next q hq => rw [hat q hq]
  · right
    rw [hbefore, hafter]
    exact ⟨rfl, rfl⟩

theorem file?_set_file (h : tree.at? place = none) {bytes : ByteArray}
    (hother : (tree.set place (.file bytes)).locate .find here p ≠ .ok (.present place)) :
    (tree.set place (.file bytes)).file? here p = tree.file? here p := by
  unfold file?
  rcases locate_set_file_of_ne h hother with ⟨hlocate, hat⟩ | ⟨hbefore, hafter⟩
  · rw [hlocate]
    split
    · next q hq => rw [hat q hq]
    · rfl
  · rw [hbefore, hafter]

end Requests

end LiteralAudit.FileTree
