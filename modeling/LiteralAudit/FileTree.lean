import LiteralAudit.Path

/-!
A tree of files, directories and symbolic links. A place in the tree is the list
of the names that lead to it from the root; a table says what is at each place
but the root, which is always a directory. A path is looked up from a place to
start from, name by name, through the links on its way.
-/

namespace LiteralAudit

/-- Why a file cannot be used. -/
inductive AccessFault where
  | missing
  | inputOutput
  | denied
  | notDirectory
  | isDirectory
  | nameTooLong
  | tooManyLinks
  | nulInPath
  | notUtf8
  /-- Any other reason, in the words of the system. -/
  | other (message : Text)
deriving DecidableEq, Repr

def AccessFault.describe : AccessFault → Text
  | .missing => "No such file or directory (os error 2)".toList
  | .inputOutput => "Input/output error (os error 5)".toList
  | .denied => "Permission denied (os error 13)".toList
  | .notDirectory => "Not a directory (os error 20)".toList
  | .isDirectory => "Is a directory (os error 21)".toList
  | .nameTooLong => "File name too long (os error 36)".toList
  | .tooManyLinks => "Too many levels of symbolic links (os error 40)".toList
  | .nulInPath => "file name contained an unexpected NUL byte".toList
  | .notUtf8 => "stream did not contain valid UTF-8".toList
  | .other message => message

/-- What a place holds. -/
inductive Entry where
  | file (bytes : ByteArray)
  /-- A file whose bytes are there, but that can be neither read nor written, and why. -/
  | locked (bytes : ByteArray) (fault : AccessFault)
  /-- Something that is no file but can be read like one; what is written to it is gone. -/
  | device (bytes : ByteArray)
  | directory
  /-- A directory in which nothing can be made, and why. -/
  | closed (fault : AccessFault)
  /-- A directory in which nothing can be looked up either, and why. -/
  | barred (fault : AccessFault)
  | link (target : Path)

/-- The names that lead to a place from the root. -/
abbrev Place := List Path

/-- What is at each place. Of the rows for one place the first counts. -/
structure FileTree where
  rows : List (Place × Entry)

namespace FileTree

def empty : FileTree := ⟨[]⟩

instance : Inhabited FileTree := ⟨empty⟩

/-- What the tree holds at a place. -/
def at? (tree : FileTree) (place : Place) : Option Entry :=
  if place = [] then some .directory else tree.rows.lookup place

/-- Whether a place holds a directory. -/
def isDirectory (tree : FileTree) (place : Place) : Bool :=
  match tree.at? place with
  | some .directory | some (.closed _) | some (.barred _) => true
  | _ => false

/-- Why nothing can be looked up in a directory, if it is so. -/
def bar? (tree : FileTree) (place : Place) : Option AccessFault :=
  match tree.at? place with
  | some (.barred fault) => some fault
  | _ => none

/-- Whether a place holds a directory in which names can be looked up. -/
def isSearchable (tree : FileTree) (place : Place) : Bool :=
  tree.isDirectory place && (tree.bar? place).isNone

/-- The tree with another entry at a place. -/
def set (tree : FileTree) (place : Place) (entry : Entry) : FileTree :=
  ⟨(place, entry) :: tree.rows.filter fun row => row.1 ≠ place⟩

/-- The longest name of a directory entry, in bytes. -/
def longestName : Nat := 255

/-- The longest path, in bytes. -/
def longestPath : Nat := 4095

/-- The most links that are followed in one look-up. -/
def mostLinks : Nat := 40

/-- The names of a path. A slash at its end, which asks for a directory, is kept as an
empty name. -/
def names (p : Path) : List Path :=
  (Path.pieces p).filter (· ≠ []) ++ if p.getLast? = some Path.slash then [[]] else []

/-- The place where a path starts. -/
def origin (here : Place) (p : Path) : Place := if p.isAbsolute then [] else here

/-- What a look-up is for. -/
inductive Intent where
  /-- To find what is there. -/
  | find
  /-- To write a file, which is made if it is not there yet. -/
  | create
deriving DecidableEq, Repr

/-- The end of a look-up. -/
inductive Spot where
  /-- The place holds something that is not a link. -/
  | present (place : Place)
  /-- The place holds nothing, but it could: its directory is there. -/
  | vacant (place : Place)
deriving DecidableEq, Repr

/-- Follows names from a place. At a link the look-up goes on as told, from the
place that holds the link. Where nothing can be looked up, one can neither stay nor
climb. A file cannot be made under a name that asks for a directory; this is noticed
before the name is looked up. A directory that is gone, which can only be the one to
start from, has no entries any more, but one can stay in it and climb out of it. -/
def follow (tree : FileTree) (intent : Intent)
    (atLink : Place → Path → List Path → Except AccessFault Spot) :
    Place → List Path → Except AccessFault Spot
  | here, [] => .ok (.present here)
  | here, name :: left =>
    if name = [] then follow tree intent atLink here left
    else match tree.bar? here with
      | some fault => .error fault
      | none =>
        if name = [Path.dot] then follow tree intent atLink here left
        else if name = [Path.dot, Path.dot] then follow tree intent atLink here.dropLast left
        else if intent = .create ∧ left = [[]] then .error .isDirectory
        else if !tree.isDirectory here then .error .missing
        else if longestName < name.length then .error .nameTooLong
        else match tree.at? (here ++ [name]) with
          | none => if left = [] then .ok (.vacant (here ++ [name])) else .error .missing
          | some (.link target) => atLink here target left
          | some (.file _) | some (.locked ..) | some (.device _) =>
            if left = [] then .ok (.present (here ++ [name])) else .error .notDirectory
          | some .directory | some (.closed _) | some (.barred _) =>
            follow tree intent atLink (here ++ [name]) left

/-- Follows names from a place through at most so many links. -/
def followLinks (tree : FileTree) (intent : Intent) :
    Nat → Place → List Path → Except AccessFault Spot
  | 0 => tree.follow intent fun _ _ _ => .error .tooManyLinks
  | links + 1 => tree.follow intent fun here target left =>
    followLinks tree intent links (origin here target) (names target ++ left)

/-- The place that a path names, links followed to the last. -/
def locate (tree : FileTree) (intent : Intent) (here : Place) (p : Path) :
    Except AccessFault Spot :=
  if Path.nul ∈ p then .error .nulInPath
  else if p = [] then .error .missing
  else if longestPath < p.length then .error .nameTooLong
  else tree.followLinks intent mostLinks (origin here p) (names p)

/-- Whether a path names something. -/
def isPresent (tree : FileTree) (here : Place) (p : Path) : Bool :=
  match tree.locate .find here p with
  | .ok (.present _) => true
  | _ => false

/-- Whether a path names a file. -/
def isFile (tree : FileTree) (here : Place) (p : Path) : Bool :=
  match tree.locate .find here p with
  | .ok (.present place) =>
    match tree.at? place with
    | some (.file _) | some (.locked ..) => true
    | _ => false
  | _ => false

/-- The bytes that are read from what a path names. -/
def read (tree : FileTree) (here : Place) (p : Path) : Except AccessFault ByteArray :=
  match tree.locate .find here p with
  | .error fault => .error fault
  | .ok (.vacant _) => .error .missing
  | .ok (.present place) =>
    match tree.at? place with
    | some (.file bytes) | some (.device bytes) => .ok bytes
    | some (.locked _ fault) => .error fault
    | _ => .error .isDirectory

/-- Writes the file that a path names; if nothing is there, a new one. A failure
leaves the tree as it was. -/
def write (tree : FileTree) (here : Place) (p : Path) (bytes : ByteArray) :
    Except AccessFault FileTree :=
  match tree.locate .create here p with
  | .error fault => .error fault
  | .ok (.vacant place) =>
    match tree.at? place.dropLast with
    | some (.closed fault) => .error fault
    | _ => .ok (tree.set place (.file bytes))
  | .ok (.present place) =>
    match tree.at? place with
    | some (.file _) => .ok (tree.set place (.file bytes))
    | some (.device _) => .ok tree
    | some (.locked _ fault) => .error fault
    | _ => .error .isDirectory

theorem isDirectory_iff {tree : FileTree} {place : Place} :
    tree.isDirectory place ↔
      tree.at? place = some .directory ∨ (∃ fault, tree.at? place = some (.closed fault)) ∨
        ∃ fault, tree.at? place = some (.barred fault) := by
  unfold isDirectory
  split <;> simp_all

theorem isSearchable_iff {tree : FileTree} {place : Place} :
    tree.isSearchable place ↔ tree.isDirectory place ∧ tree.bar? place = none := by
  rw [isSearchable, Bool.and_eq_true, Option.isNone_iff_eq_none]

theorem at?_set_self {tree : FileTree} {place : Place} (entry : Entry) (h : place ≠ []) :
    (tree.set place entry).at? place = some entry := by
  simp [at?, set, h]

/-- Leaving out the rows of one place changes no other look-up. -/
theorem lookup_filter_of_ne {rows : List (Place × Entry)} {place other : Place}
    (h : other ≠ place) :
    (rows.filter fun row => row.1 ≠ place).lookup other = rows.lookup other := by
  induction rows with
  | nil => rfl
  | cons row rows ih =>
    obtain ⟨there, entry⟩ := row
    by_cases hrow : there = place
    · subst hrow
      simpa [List.lookup_cons, beq_eq_false_iff_ne.2 h] using ih
    · simp only [ne_eq, hrow, not_false_eq_true, decide_true, List.filter_cons_of_pos,
        List.lookup_cons]
      rw [ih]

theorem at?_set_of_ne {tree : FileTree} {place other : Place} (entry : Entry)
    (h : other ≠ place) : (tree.set place entry).at? other = tree.at? other := by
  simp only [at?, set, List.lookup_cons, beq_eq_false_iff_ne.2 h, lookup_filter_of_ne h]

end FileTree

end LiteralAudit
