import LiteralAudit.Styled
import LiteralAudit.Terminal

/-!
Messages about the command line. A message is a row of pieces, some of them emphasised.
Where colour is on, each emphasised piece stands between the sequences that switch its
styles on and off. Where it is off, the message is what a terminal would show of it, so
that sequences in a cited argument are taken out too.
-/

namespace LiteralAudit

/-- A piece of a message. -/
structure Span where
  /-- The styles in which it is emphasised. -/
  styles : List Style
  text : Text
deriving DecidableEq, Repr

namespace Span

/-- Words without emphasis. -/
def words (t : Text) : Span := ⟨[], t⟩

/-- Something that is typed as it stands. -/
def literal (t : Text) : Span := ⟨[.bold], t⟩

/-- The heading of a part of a message. -/
def heading (t : Text) : Span := ⟨[.bold, .underline], t⟩

/-- The announcement of a mistake. -/
def alarm (t : Text) : Span := ⟨[.bold, .red], t⟩

/-- Something that is not accepted. -/
def refused (t : Text) : Span := ⟨[.yellow], t⟩

/-- Something that would be accepted. -/
def advice (t : Text) : Span := ⟨[.green], t⟩

/-- The piece with the sequences for its styles. -/
def marked (s : Span) : Text :=
  (s.styles.flatMap fun style => Style.opening [style]) ++ s.text ++
    if s.styles.isEmpty then [] else Style.closing

end Span

/-- A row of pieces. -/
abbrev Message := List Span

namespace Message

/-- The message where colour is on. -/
def marked (m : Message) : Text := m.flatMap Span.marked

/-- The message where colour is off. -/
def plain (m : Message) : Text := Terminal.shown m.marked

/-- The message where colour is off, as it is written to a stream. -/
def streamed (m : Message) : Text := Terminal.shownInStream m.marked

/-- The number of characters of a message. -/
def width (m : Message) : Nat := m.foldr (fun s n => s.text.length + n) 0

/-- Messages with the same words between every two of them. -/
def join (between : Text) (ms : List Message) : Message :=
  List.intercalate [Span.words between] ms

/-- Blocks with an empty line between them, and a line end behind the last. -/
def ofBlocks (blocks : List Message) : Message := join ['\n', '\n'] blocks ++ [.words ['\n']]

/-- A piece between single quotes. -/
def cite (s : Span) : Message := [.words ['\''], s, .words ['\'']]

end Message

end LiteralAudit
