import LiteralAudit.FileTree
import LiteralAudit.Replacements

/-!
What the program asks of the machine that it runs on. The program is written
for any machine that answers these requests. A modelled machine answers them
from a tree of files and keeps what is said; it is the one about which
statements are made.
-/

namespace LiteralAudit

/-- The two places to which a program writes. -/
inductive Stream where
  | output
  | errors
deriving DecidableEq, Repr

/-- The requests of the program, answered in `m`. Paths are as they are written. -/
structure Host (m : Type → Type) where
  /-- The absolute path of the directory where the program runs. -/
  directory : m (Except AccessFault Path)
  /-- Whether a path names something. -/
  isPresent : Path → m Bool
  /-- Whether a path names a file. -/
  isFile : Path → m Bool
  read : Path → m (Except AccessFault ByteArray)
  write : Path → ByteArray → m (Except AccessFault Unit)
  /-- The order in which the program goes through keys, which can be another one in each run. -/
  keyOrder : m KeyOrder
  say : Stream → Text → m Unit

/-- The text that bytes encode; nothing if they are not the UTF-8 form of a text. -/
def decodeText (bytes : ByteArray) : Option Text := bytes.utf8Decode?.map Array.toList

/-- The UTF-8 form of a text. -/
def encodeText (t : Text) : ByteArray := (String.ofList t).toUTF8

/-- The text of the file that a path names. -/
def Host.readText {m : Type → Type} [Monad m] (host : Host m) (p : Path) :
    m (Except AccessFault Text) := do
  match ← host.read p with
  | .error fault => return .error fault
  | .ok bytes =>
    match decodeText bytes with
    | some t => return .ok t
    | none => return .error .notUtf8

/-- The same requests for a program that keeps something of its own besides. -/
def Host.lift {m : Type → Type} [Monad m] (host : Host m) (σ : Type) : Host (StateT σ m) where
  directory := StateT.lift host.directory
  isPresent p := StateT.lift (host.isPresent p)
  isFile p := StateT.lift (host.isFile p)
  read p := StateT.lift (host.read p)
  write p bytes := StateT.lift (host.write p bytes)
  keyOrder := StateT.lift host.keyOrder
  say stream t := StateT.lift (host.say stream t)

/-- A modelled machine. -/
structure World where
  tree : FileTree
  /-- The directory where the program runs. -/
  here : Place
  /-- The order in which the program goes through keys. -/
  order : KeyOrder
  /-- What was said on each stream. -/
  output : Text
  errors : Text

namespace World

/-- A machine on which nothing was said yet. -/
def quiet (tree : FileTree) (here : Place) (order : KeyOrder := .ascending) : World :=
  ⟨tree, here, order, [], []⟩

/-- The absolute path of a place. -/
def pathOf (place : Place) : Path :=
  if place = [] then [Path.slash] else place.flatMap fun name => Path.slash :: name

/-- The absolute path of the directory where the program runs, if it is still there. -/
def directory (w : World) : Except AccessFault Path :=
  if w.tree.isDirectory w.here then .ok (pathOf w.here) else .error .missing

def say (w : World) : Stream → Text → World
  | .output, t => { w with output := w.output ++ t }
  | .errors, t => { w with errors := w.errors ++ t }

/-- The requests as a modelled machine answers them. -/
def host : Host (StateM World) where
  directory := return (← get).directory
  isPresent p := return (← get).tree.isPresent (← get).here p
  isFile p := return (← get).tree.isFile (← get).here p
  read p := return (← get).tree.read (← get).here p
  write p bytes := do
    match (← get).tree.write (← get).here p bytes with
    | .ok tree => modify fun w => { w with tree }; return .ok ()
    | .error fault => return .error fault
  keyOrder := return (← get).order
  say stream t := modify fun w => w.say stream t

end World

end LiteralAudit
