import LiteralAudit.Proofs.Audit.Sources
import LiteralAudit.Proofs.Finding.Tuning
import LiteralAudit.Proofs.Json.Rows

/-!
# Files with replacements

However a file spells its keys and values, whatever white space stands between its tokens and
however often it gives a key, the table that is loaded is the finite map in which each key has the
value of its last entry. So a literal of a source text is looked up under its bytes, not under the
way in which the file writes them.
-/

namespace LiteralAudit

theorem encodeText_injective {s t : Text} (h : encodeText s = encodeText t) : s = t := by
  have hdecode := decodeText_encodeText s
  rw [h, decodeText_encodeText] at hdecode
  exact (Option.some.inj hdecode).symm

namespace Replacements

open Json

variable {entries : List (Text × Text)} {text : Text} {key value : Text}

/-! ## Spelled tables -/

/-- The text is an object with these entries, in this order, and each string in it has any
spelling that stands for it. -/
def Spells (text : Text) (entries : List (Text × Text)) : Prop :=
  ∃ before row after, IsSpace before ∧ IsSpace after ∧ Row '\x7d' IsEntry true entries row ∧
    text = before ++ '\x7b' :: (row ++ after)

theorem Spells.ofText_eq (h : Spells text entries) : ofText text = .ok (.ofList entries) := by
  obtain ⟨before, row, after, hbefore, hafter, hrow, rfl⟩ := h
  have htable : IsTable ('\x7b' :: row) (.ofList entries) := ⟨entries, row, rfl, rfl, hrow⟩
  exact document_eq_ok_iff.2
    ⟨after, htable.reads before after hbefore hafter.endsNumeral, hafter⟩

theorem Spells.run_load (h : Spells text entries) {path : Path} {w : World}
    (hfile : w.tree.read w.here path = .ok (encodeText text)) :
    (load World.host path).run w = (.ok (.ofList entries), w) := by
  rw [Replacements.run_load, loadOn, World.text_of_read hfile]
  simp only [check_eq_ok_iff.2 h.ofText_eq]

/-- Any entries can be written. -/
theorem spells_written (entries : List (Text × Text)) :
    Spells
      (writtenObject 0 (entries.map fun entry =>
        writtenMember entry.1 (writtenString entry.2)))
      entries := by
  obtain ⟨row, heq, hrow⟩ := exists_row_of_writtenEntries 0 entries
  exact ⟨[], row, [], isSpace_nil, isSpace_nil, hrow, by rw [List.append_nil]; exact heq⟩

/-! ## Last entries -/

theorem find?_ofList_eq_some_iff :
    (ofList entries).find? key = some value ↔ IsLatest entries key value := by
  rw [ofList, find?_layer_eq_some_iff, find?_empty]
  simp

theorem find?_ofList_eq_none_iff :
    (ofList entries).find? key = none ↔ key ∉ entries.map Prod.fst := by
  rw [ofList, find?_layer, find?_empty, Option.or_none, lookup_reverse_eq_none_iff]

/-- The last of the entries whose key has the bytes of the literal gives the value, or else the
table does. -/
def AnswersBytes (table : Replacements) (entries : List (Text × Text)) (literal value : Text) :
    Prop :=
  (∃ key, encodeText key = encodeText literal ∧ IsLatest entries key value) ∨
    (∀ entry ∈ entries, encodeText entry.1 ≠ encodeText literal) ∧
      table.find? literal = some value

/-- A literal is looked up under its bytes. -/
theorem find?_layer_ofList_eq_some_iff (table : Replacements) :
    (table.layer (ofList entries).entries).find? key = some value ↔
      AnswersBytes table entries key value := by
  have hlatest : IsLatest entries key value ↔
      ∃ other, encodeText other = encodeText key ∧ IsLatest entries other value := by
    constructor
    · exact fun h => ⟨key, rfl, h⟩
    · rintro ⟨other, hbytes, h⟩
      rwa [encodeText_injective hbytes] at h
  have hnone : key ∉ entries.map Prod.fst ↔
      ∀ entry ∈ entries, encodeText entry.1 ≠ encodeText key := by
    rw [List.mem_map, not_exists]
    refine forall_congr' fun entry => ?_
    rw [not_and]
    refine forall_congr' fun _ => not_congr ⟨congrArg encodeText, encodeText_injective⟩
  rw [find?_layer_entries, Option.or_eq_some_iff, find?_ofList_eq_some_iff,
    find?_ofList_eq_none_iff, hlatest, hnone]
  rfl

/-- An object of any entries is loaded in whatever spelling, and what is loaded is the finite map
in which each key has the value of its last entry; every other spelling of the entries is loaded
as the same map. When it is laid over a table, a literal is answered by the last entry that has
its bytes, or else by the table. So the suggestions in a source text are those of its first
candidates that are answered in this way, whatever the spelling. -/
theorem load_spelled (h : Spells text entries) {path : Path} {w : World}
    (hfile : w.tree.read w.here path = .ok (encodeText text)) :
    ∃ table, (load World.host path).run w = (.ok table, w) ∧
      (∀ key value, table.find? key = some value ↔ IsLatest entries key value) ∧
      (∀ key, table.find? key = none ↔ key ∉ entries.map Prod.fst) ∧
      (∀ other, Spells other entries → ∀ path' w',
        w'.tree.read w'.here path' = .ok (encodeText other) →
          (load World.host path').run w' = (.ok table, w')) ∧
      (∀ base literal value, (layer base table.entries).find? literal = some value ↔
        AnswersBytes base entries literal value) ∧
      ∀ (context : Context) (name : Path) (source : Text) (s : Suggestion),
        s ∈ (Finding.ofText (context.layered table.entries) name source).suggestions ↔
          s.literal ∈ (candidates context.filter source).take context.previewLimit ∧
            AnswersBytes context.table entries s.literal s.expression := by
  refine ⟨.ofList entries, h.run_load hfile, fun _ _ => find?_ofList_eq_some_iff,
    fun _ => find?_ofList_eq_none_iff, fun _ hother _ _ => hother.run_load,
    fun base _ _ => find?_layer_ofList_eq_some_iff base, ?_⟩
  intro context name source s
  rw [← find?_layer_ofList_eq_some_iff]
  exact Finding.mem_suggestionsFor_iff

/-- Two entries for one key, each of its characters written in two ways. -/
def escapedText : Text :=
  "\n\x7b \"\\u0022\\u00e9\\uD83D\\ude00\\\"\" :\t\"a\", \"\\\"é😀\\u0022\":\"\\u0062\"\x7d\r".toList

def escapedEntries : List (Text × Text) := [("\"é😀\"".toList, ['a']), ("\"é😀\"".toList, ['b'])]

theorem spells_escapedText : Spells escapedText escapedEntries := by
  have hquote : SpellsChar ['\\', 'u', '0', '0', '2', '2'] '"' := .unit (by decide)
  have haccent : SpellsChar ['\\', 'u', '0', '0', 'e', '9'] 'é' := .unit (by decide)
  have hhigh : IsHexUnit ['D', '8', '3', 'D'] 0xd83d := by decide
  have hlow : IsHexUnit ['d', 'e', '0', '0'] 0xde00 := by decide
  have hsmile : SpellsChar _ '😀' := .pair (by decide) hhigh hlow
  have hletter : SpellsChar ['\\', 'u', '0', '0', '6', '2'] 'b' := .unit (by decide)
  have hshort : SpellsChar ['\\', '"'] '"' := .short (by decide)
  have hplainLetter : SpellsChar ['a'] 'a' := .plain (by decide) (by decide) (by decide)
  have hplainAccent : SpellsChar ['é'] 'é' := .plain (by decide) (by decide) (by decide)
  have hplainSmile : SpellsChar ['😀'] '😀' := .plain (by decide) (by decide) (by decide)
  have hfirst : IsEntry "\"\\u0022\\u00e9\\uD83D\\ude00\\\"\" :\t\"a\"".toList
      ("\"é😀\"".toList, ['a']) :=
    ⟨_, [' '], ['\t'], _, .cons hquote (.cons haccent (.cons hsmile (.cons hshort .nil))),
      by decide, by decide, ⟨_, .cons hplainLetter .nil, rfl⟩, rfl⟩
  have hsecond : IsEntry "\"\\\"é😀\\u0022\":\"\\u0062\"".toList ("\"é😀\"".toList, ['b']) :=
    ⟨_, [], [], _, .cons hshort (.cons hplainAccent (.cons hplainSmile (.cons hquote .nil))),
      by decide, by decide, ⟨_, .cons hletter .nil, rfl⟩, rfl⟩
  have hclose : Row '\x7d' IsEntry false [] ([] ++ ['\x7d']) := .close isSpace_nil
  have hspace : IsSpace [' '] := by decide
  refine ⟨['\n'], _, ['\r'], by decide, by decide,
    .first hspace hfirst (.next isSpace_nil hspace hsecond hclose), ?_⟩
  decide +kernel

/-- A context that looks up one candidate and has no entries of its own. -/
def sparseContext : Context := ⟨['m'], ⟨0, []⟩, 1, .empty⟩

/-- The second value counts in this spelling as in the usual one, and the literal is found under
its characters. -/
theorem load_spelled_escapedText :
    ∃ table, (load World.host (.of "c")).run (World.holding escapedText) =
        (.ok table, World.holding escapedText) ∧
      (∀ written, written = writtenObject 0 (escapedEntries.map fun entry =>
          writtenMember entry.1 (writtenString entry.2)) →
        (load World.host (.of "c")).run (World.holding written) =
          (.ok table, World.holding written)) ∧
      table.find? "\"é😀\"".toList = some ['b'] ∧
      table.find? "é😀".toList = none ∧
      ⟨"\"é😀\"".toList, ['b']⟩ ∈
        (Finding.ofText (sparseContext.layered table.entries) []
          "x \"é😀\" y".toList).suggestions := by
  obtain ⟨table, hload, hsome, hnone, hother, -, hsuggestion⟩ :=
    load_spelled spells_escapedText (World.read_holding escapedText)
  have hlatest : IsLatest escapedEntries "\"é😀\"".toList ['b'] :=
    isLatest_iff_lookup_reverse.2 (by decide)
  refine ⟨table, hload, ?_, (hsome _ _).2 hlatest, (hnone _).2 (by decide), ?_⟩
  · rintro _ rfl
    exact hother _ (spells_written _) _ _ (World.read_holding _)
  · exact (hsuggestion _ _ _ _).2 ⟨by decide, .inl ⟨_, rfl, hlatest⟩⟩

end Replacements

end LiteralAudit
