import LiteralAudit.Text

/-!
Emphasis and colour in terminal output. A styled text stands between a sequence
that switches its styles on and one that switches everything off. Where the text
holds such an end itself, its styles are switched on again behind it. When
colour is off, a styled text is the text alone.
-/

namespace LiteralAudit

inductive Style where
  | bold
  | underline
  | red
  | green
  | yellow
  | cyan
deriving DecidableEq, Repr

namespace Style

/-- The number of a style in a terminal sequence. -/
def code : Style → Text
  | bold => ['1']
  | underline => ['4']
  | red => ['3', '1']
  | green => ['3', '2']
  | yellow => ['3', '3']
  | cyan => ['3', '6']

/-- The sequence that switches styles on. -/
def opening (styles : List Style) : Text :=
  ['\x1b', '['] ++ List.intercalate [';'] (styles.map code) ++ ['m']

/-- The sequence that switches all styles off. -/
def closing : Text := ['\x1b', '[', '0', 'm']

/-- The text with the given sequence behind each end of styles in it. -/
def reopen (sequence : Text) : Text → Text
  | '\x1b' :: '[' :: '0' :: 'm' :: rest => closing ++ sequence ++ reopen sequence rest
  | c :: rest => c :: reopen sequence rest
  | [] => []

end Style

/-- The text in the given styles if colour is on. -/
def styled (colour : Bool) (styles : List Style) (t : Text) : Text :=
  if colour then Style.opening styles ++ Style.reopen (Style.opening styles) t ++ Style.closing
  else t

@[simp] theorem styled_false (styles : List Style) (t : Text) : styled false styles t = t := rfl

end LiteralAudit
