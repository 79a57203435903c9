import LiteralAudit.Text

/-!
Paths as they are written, with slashes between their components. A path is
never normalised: joining and climbing only append to it or cut off its end. In
climbing, a repeated slash and a component `.` count for nothing, except for a
`.` at the very front, which stands for the directory where one is.

To the system a path is a sequence of bytes. Most paths are the UTF-8 form of a
text, but any other bytes can name a file, too.
-/

namespace LiteralAudit

/-- A path is its bytes. -/
abbrev Path := List UInt8

namespace Path

/-- The UTF-8 form of a text. -/
def ofText (t : Text) : Path := t.flatMap String.utf8EncodeChar

/-- The path that is written like this. -/
def of (s : String) : Path := ofText s.toList

/-- The byte between the components of a path. -/
def slash : UInt8 := 47

def dot : UInt8 := 46

/-- The byte that no path can hold. -/
def nul : UInt8 := 0

/-- The pieces of a path between its slashes; a path without a slash is one piece. -/
def pieces : Path → List Path
  | [] => [[]]
  | c :: rest =>
    if c = slash then [] :: pieces rest
    else match pieces rest with
      | [] => [[c]]
      | piece :: others => (c :: piece) :: others

/-- The path with the given pieces between its slashes. -/
def ofPieces (ps : List Path) : Path := List.intercalate [slash] ps

def isAbsolute (p : Path) : Bool := p.head? = some slash

theorem pieces_ne_nil (p : Path) : pieces p ≠ [] := by
  cases p with
  | nil => simp [pieces]
  | cons c rest =>
    simp only [pieces]
    split
    · simp
    · split <;> simp

/-- Taking a path apart at its slashes loses nothing. -/
theorem ofPieces_pieces (p : Path) : ofPieces (pieces p) = p := by
  induction p with
  | nil => rfl
  | cons c rest ih =>
    simp only [pieces]
    cases h : pieces rest with
    | nil => exact absurd h (pieces_ne_nil rest)
    | cons piece others =>
      rw [h] at ih
      by_cases hc : c = slash
      · subst hc
        simpa [ofPieces, List.intercalate] using ih
      · simp only [hc, if_false]
        cases others with
        | nil => simpa [ofPieces, List.intercalate] using ih
        | cons => simpa [ofPieces, List.intercalate] using ih

/-- The path of a name in a directory. The empty path is the directory where one
is, and a path that ends in a slash needs no further one. -/
def join (directory name : Path) : Path :=
  match directory.getLast? with
  | none => name
  | some last => if last = slash then directory ++ name else directory ++ slash :: name

/-- Whether a piece of a path counts for nothing in climbing. -/
def isIdle (piece : Path) : Bool := piece = [] || piece = [dot]

/-- The part of a path that climbing leaves in place to the last: the slash of an
absolute path, or a `.` at the front. -/
def anchor : Path → Path
  | [] => []
  | first :: rest =>
    if first = slash then [slash]
    else if first = dot ∧ (rest = [] ∨ rest.head? = some slash) then [dot]
    else []

/-- The pieces behind the anchor, the last first. -/
def body (p : Path) : List Path := (pieces (p.drop p.anchor.length)).reverse

/-- The directory that holds what the path names: the path without its last
component. The path of the root has none, and neither has the empty path. -/
def parent? (p : Path) : Option Path :=
  match p.body.dropWhile isIdle with
  | _ :: outer => some (p.anchor ++ ofPieces (outer.dropWhile isIdle).reverse)
  | [] => if p.anchor = [dot] then some [] else none

/-- The bodies that climbing leads to, one for each piece that counts. -/
def climb : List Path → List (List Path)
  | [] => []
  | piece :: outer => if isIdle piece then climb outer else outer.dropWhile isIdle :: climb outer

/-- The path and all the directories above it that its components name, from the
inside out. -/
def ancestors (p : Path) : List Path :=
  p :: (climb p.body).map (fun outer => p.anchor ++ ofPieces outer.reverse) ++
    if p.anchor = [dot] then [[]] else []

end Path

end LiteralAudit
