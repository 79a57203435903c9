import LiteralAudit.Proofs.FileTree.NewFile
import LiteralAudit.Proofs.Path
import Mathlib.Data.List.Basic

/-!
# Absolute paths

The absolute path of a name in a directory is the text of the place below, and it is looked
up as the name is from the directory, unless it is longer than a path may be.
-/

namespace LiteralAudit.FileTree

variable {tree : FileTree} {here : Place} {name : Path}

/-- A name that an entry of a directory can have. -/
structure IsName (name : Path) : Prop where
  ne_nil : name ≠ []
  ne_here : name ≠ [Path.dot]
  ne_up : name ≠ [Path.dot, Path.dot]
  slash : Path.slash ∉ name
  nul : Path.nul ∉ name
  short : name.length ≤ longestName

/-- The place holds a directory that can be gone to from the root, name by name. -/
structure IsReachable (tree : FileTree) (place : Place) : Prop where
  names : ∀ name ∈ place, IsName name
  directories : ∀ n, tree.isSearchable (place.take n)

theorem isReachable_root : tree.IsReachable [] where
  names := by simp
  directories n := by
    rw [List.take_nil]
    rfl

/-- What can be gone to from a directory can be gone to. -/
theorem IsReachable.below (h : tree.IsReachable here) (hname : IsName name)
    (hdirectory : tree.isSearchable (here ++ [name])) : tree.IsReachable (here ++ [name]) where
  names := by
    intro other hother
    rcases List.mem_append.1 hother with hother | hother
    · exact h.names other hother
    · obtain rfl := List.mem_singleton.1 hother
      exact hname
  directories n := by
    by_cases hle : n ≤ here.length
    · rw [List.take_append_of_le_length hle]
      exact h.directories n
    · rw [List.take_of_length_le (by simp; omega)]
      exact hdirectory

/-- In front of the first slash of an absolute path there is nothing. -/
theorem pieces_flatMap {place : Place} (h : ∀ name ∈ place, IsName name) :
    Path.pieces (place.flatMap fun name => Path.slash :: name) = [] :: place := by
  induction place with
  | nil => rfl
  | cons name rest ih =>
    have hname := (h name (List.mem_cons_self ..)).slash
    have hrest := ih fun other hother => h other (List.mem_cons_of_mem _ hother)
    show [] :: Path.pieces (name ++ rest.flatMap fun name => Path.slash :: name) = _
    cases rest with
    | nil => rw [List.flatMap_nil, List.append_nil, Path.pieces_of_not_mem hname]
    | cons other rest =>
      rw [List.flatMap_cons, List.cons_append] at hrest ⊢
      rw [Path.pieces_append_slash hname]
      exact congrArg (fun pieces => [] :: name :: pieces) (List.cons.inj hrest).2

/-- The path of a place below the root does not end in a slash. -/
theorem exists_getLast?_pathOf {place : Place} (h : ∀ name ∈ place, IsName name)
    (hne : place ≠ []) : ∃ c, (World.pathOf place).getLast? = some c ∧ c ≠ Path.slash := by
  obtain ⟨outer, name, rfl⟩ := List.eq_nil_or_concat' place |>.resolve_left hne
  have hname := h name (by simp)
  obtain ⟨front, c, rfl⟩ := List.eq_nil_or_concat' name |>.resolve_left hname.ne_nil
  refine ⟨c, ?_, ?_⟩
  · simp [World.pathOf, List.getLast?_append, List.getLast?_cons]
  · rintro rfl
    exact hname.slash (by simp)

theorem names_pathOf {place : Place} (h : ∀ name ∈ place, IsName name) (hne : place ≠ []) :
    names (World.pathOf place) = place := by
  obtain ⟨c, hlast, hc⟩ := exists_getLast?_pathOf h hne
  have hslash : (World.pathOf place).getLast? ≠ some Path.slash := by
    rw [hlast]
    exact fun heq => hc (Option.some.inj heq)
  have hfilter : place.filter (· ≠ []) = place :=
    List.filter_eq_self.2 fun name hname => by simpa using (h name hname).ne_nil
  rw [names, if_neg hslash, List.append_nil, World.pathOf, if_neg hne, pieces_flatMap h,
    List.filter_cons_of_neg (by simp), hfilter]

/-- The path of a name in a directory is that of the place below. -/
theorem join_pathOf {place : Place} (h : ∀ name ∈ place, IsName name) (name : Path) :
    Path.join (World.pathOf place) name = World.pathOf (place ++ [name]) := by
  by_cases hne : place = []
  · subst hne
    simp [Path.join, World.pathOf]
  · obtain ⟨c, hlast, hc⟩ := exists_getLast?_pathOf h hne
    rw [Path.join, hlast]
    simp [World.pathOf, hne, hc]

/-- Directories on the way are gone through. -/
theorem follow_directories
    {atLink : Place → Path → List Path → Except AccessFault Spot} {below : Place}
    (hnames : ∀ name ∈ below, IsName name) (here : Place)
    (hdirectories : ∀ n, tree.isSearchable (here ++ below.take n)) (left : List Path) :
    tree.follow .find atLink here (below ++ left) =
      tree.follow .find atLink (here ++ below) left := by
  induction below generalizing here with
  | nil => rw [List.nil_append, List.append_nil]
  | cons name below ih =>
    have hname := hnames name (List.mem_cons_self ..)
    obtain ⟨hhere, hbar⟩ : tree.isDirectory here = true ∧ tree.bar? here = none := by
      simpa [isSearchable_iff] using hdirectories 0
    obtain ⟨hentry, -⟩ : tree.isDirectory (here ++ [name]) ∧ tree.bar? (here ++ [name]) = none := by
      simpa [isSearchable_iff] using hdirectories 1
    have hbelow : ∀ n, tree.isSearchable (here ++ [name] ++ below.take n) := by
      intro n
      simpa using hdirectories (n + 1)
    have hrest := ih (fun other hother => hnames other (List.mem_cons_of_mem _ hother))
      (here ++ [name]) hbelow
    rw [List.append_assoc, List.singleton_append] at hrest
    rw [List.cons_append, follow, hhere, hbar]
    simp only [Bool.not_true, Bool.false_eq_true, if_false, hname.ne_nil, hname.ne_here,
      hname.ne_up, reduceCtorEq, false_and, Nat.not_lt.2 hname.short]
    rcases isDirectory_iff.1 hentry with hat | ⟨fault, hat⟩ | ⟨fault, hat⟩
    · simp only [hat]
      exact hrest
    · simp only [hat]
      exact hrest
    · simp only [hat]
      exact hrest

/-! ## Look-ups -/

theorem exists_pathOf (place : Place) : ∃ rest, World.pathOf place = Path.slash :: rest := by
  cases place with
  | nil => exact ⟨[], rfl⟩
  | cons name rest => exact ⟨_, rfl⟩

theorem nul_not_mem_pathOf {place : Place} (h : ∀ name ∈ place, IsName name) :
    Path.nul ∉ World.pathOf place := by
  intro hmem
  by_cases hne : place = []
  · subst hne
    exact absurd hmem (by decide)
  · rw [World.pathOf, if_neg hne] at hmem
    obtain ⟨name, hname, hmem⟩ := List.mem_flatMap.1 hmem
    rcases List.mem_cons.1 hmem with hslash | hmem
    · exact absurd hslash (by decide)
    · exact (h name hname).nul hmem

/-- The absolute path of a name in a directory is looked up from this directory, unless the
path is too long. -/
theorem locate_join_pathOf (hreachable : tree.IsReachable here) (hname : IsName name)
    (hshort : (Path.join (World.pathOf here) name).length ≤ longestPath) (other : Place) :
    tree.locate .find other (Path.join (World.pathOf here) name) =
      tree.followLinks .find mostLinks here [name] := by
  have hnames : ∀ part ∈ here ++ [name], IsName part := by
    intro part hpart
    rcases List.mem_append.1 hpart with hpart | hpart
    · exact hreachable.names part hpart
    · obtain rfl := List.mem_singleton.1 hpart
      exact hname
  have hne : here ++ [name] ≠ [] := by simp
  have hdirectories : ∀ n, tree.isSearchable ([] ++ here.take n) := hreachable.directories
  rw [join_pathOf hreachable.names] at hshort ⊢
  obtain ⟨rest, hrest⟩ := exists_pathOf (here ++ [name])
  have horigin : origin other (World.pathOf (here ++ [name])) = [] := by
    rw [hrest]
    rfl
  -- the names of the path are those of the place, and all but the last are gone through
  rw [locate, if_neg (nul_not_mem_pathOf hnames), if_neg (by rw [hrest]; simp),
    if_neg (Nat.not_lt.2 hshort), horigin, names_pathOf hnames hne, mostLinks, followLinks]
  exact follow_directories hreachable.names [] hdirectories [name]

/-- A name behind `./` is looked up from where one is. -/
theorem locate_join_dot (hname : IsName name) :
    tree.locate .find here (Path.join [Path.dot] name) =
      tree.followLinks .find mostLinks here [name] := by
  have hjoin : Path.join [Path.dot] name = Path.dot :: Path.slash :: name := rfl
  have hnul : Path.nul ∉ Path.dot :: Path.slash :: name := by
    simp only [List.mem_cons, not_or]
    exact ⟨by decide, by decide, hname.nul⟩
  have hshort : ¬ longestPath < (Path.dot :: Path.slash :: name).length := by
    have hle := hname.short
    simp only [List.length_cons, longestPath, longestName] at hle ⊢
    omega
  have hnames : names (Path.dot :: Path.slash :: name) = [[Path.dot], name] := by
    have hpieces : Path.pieces (Path.dot :: Path.slash :: name) = [[Path.dot], name] := by
      have hdot : Path.slash ∉ [Path.dot] := by decide
      have hsplit := Path.pieces_append_slash hdot name
      rwa [Path.pieces_of_not_mem hname.slash] at hsplit
    obtain ⟨front, c, rfl⟩ := List.eq_nil_or_concat' name |>.resolve_left hname.ne_nil
    have hlast : (Path.dot :: Path.slash :: (front ++ [c])).getLast? ≠ some Path.slash := by
      have hc : c ≠ Path.slash := by
        rintro rfl
        exact hname.slash (by simp)
      simp [List.getLast?_cons, hc]
    rw [names, hpieces, if_neg hlast]
    simp
  rw [hjoin, locate, if_neg hnul, if_neg (List.cons_ne_nil _ _), if_neg hshort, hnames,
    mostLinks, followLinks]
  show tree.follow .find _ here [[Path.dot], name] = _
  -- where nothing can be looked up, neither can the dot
  rw [follow, follow, if_neg (List.cons_ne_nil _ _), if_neg hname.ne_nil]
  cases tree.bar? here <;> simp [follow]

/-- In a directory that is gone a name leads nowhere. -/
theorem isDirectory_of_locate_join_dot (hname : IsName name) {spot : Spot}
    (h : tree.locate .find here (Path.join [Path.dot] name) = .ok spot) :
    tree.isDirectory here := by
  rw [locate_join_dot hname, mostLinks, followLinks, follow, if_neg hname.ne_nil] at h
  cases hhere : tree.isDirectory here with
  | true => rfl
  | false =>
    simp only [hname.ne_here, hname.ne_up, reduceCtorEq, false_and, if_false, hhere,
      Bool.not_false, if_true] at h
    split at h <;> cases h

/-- A directory that can be gone to stays one. -/
theorem IsReachable.set_file (h : tree.IsReachable here) (hplace : tree.at? place = none)
    (bytes : ByteArray) : (tree.set place (.file bytes)).IsReachable here where
  names := h.names
  directories n := by
    rw [isSearchable, isDirectory_set_file hplace, bar?_set_file hplace]
    exact h.directories n

end LiteralAudit.FileTree
