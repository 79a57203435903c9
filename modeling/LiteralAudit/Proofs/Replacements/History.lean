import LiteralAudit.Proofs.Replacements

/-!
# How tables come about

A program starts with no entries or with the standard ones, and lays lists of entries over what
it has. Whatever was laid over a table before, a look-up gives the value of the last entry with
the key, or else that of the table at the start. So the entries that were laid over a table
count as one list, and neither the cuts in it nor the order of different keys leave a trace.
-/

namespace LiteralAudit.Replacements

/-! ## Last entries -/

/-- In a list of entries, the last one with the key has the value. -/
def IsLatest (entries : List (Text × Text)) (key value : Text) : Prop :=
  ∃ earlier later, entries = earlier ++ (key, value) :: later ∧ ∀ entry ∈ later, entry.1 ≠ key

section

variable {table : Replacements} {entries extra : List (Text × Text)} {key value : Text}

/-- Seen from its end, a list shows the last entry with a key first. -/
theorem isLatest_iff_lookup_reverse :
    IsLatest entries key value ↔ entries.reverse.lookup key = some value := by
  rw [List.lookup_eq_some_iff]
  constructor
  · rintro ⟨earlier, later, rfl, hlater⟩
    refine ⟨later.reverse, earlier.reverse, by simp, ?_⟩
    intro entry hentry
    exact bne_iff_ne.2 (hlater entry (List.mem_reverse.1 hentry)).symm
  · rintro ⟨later, earlier, heq, hlater⟩
    refine ⟨earlier.reverse, later.reverse, ?_, ?_⟩
    · rw [← List.reverse_reverse entries, heq]
      simp
    · intro entry hentry
      exact (bne_iff_ne.1 (hlater entry (List.mem_reverse.1 hentry))).symm

theorem lookup_reverse_eq_none_iff :
    entries.reverse.lookup key = none ↔ key ∉ entries.map Prod.fst := by
  simp only [List.lookup_eq_none_iff, List.mem_reverse, bne_iff_ne, List.mem_map, not_exists,
    not_and]
  constructor
  · intro h entry hentry heq
    exact h entry hentry heq.symm
  · intro h entry hentry heq
    exact h entry hentry heq.symm

theorem IsLatest.mem_keys (h : IsLatest entries key value) : key ∈ entries.map Prod.fst := by
  obtain ⟨earlier, later, rfl, -⟩ := h
  simp

/-- What is added at the end of a list is later. -/
theorem isLatest_append_iff :
    IsLatest (entries ++ extra) key value ↔
      IsLatest extra key value ∨ key ∉ extra.map Prod.fst ∧ IsLatest entries key value := by
  simp only [isLatest_iff_lookup_reverse, ← lookup_reverse_eq_none_iff]
  rw [List.reverse_append, List.lookup_append, Option.or_eq_some_iff]

/-! ## One layer -/

/-- What is laid over a table is asked first, and the table only for other keys. -/
theorem find?_layer_eq_some_iff :
    (table.layer extra).find? key = some value ↔
      IsLatest extra key value ∨ key ∉ extra.map Prod.fst ∧ table.find? key = some value := by
  rw [find?_layer, Option.or_eq_some_iff, isLatest_iff_lookup_reverse,
    lookup_reverse_eq_none_iff]

/-- Layers without a common key can be laid in any order. -/
theorem layer_comm {a b : List (Text × Text)}
    (h : (a.map Prod.fst).Disjoint (b.map Prod.fst)) (table : Replacements) :
    (table.layer a).layer b = (table.layer b).layer a := by
  apply ext_find?
  intro key
  rw [find?_layer, find?_layer, find?_layer, find?_layer]
  by_cases hkey : key ∈ a.map Prod.fst
  · have hother : b.reverse.lookup key = none := lookup_reverse_eq_none_iff.2 (h hkey)
    rw [hother, Option.none_or, Option.none_or]
  · rw [lookup_reverse_eq_none_iff.2 hkey, Option.none_or, Option.none_or]

theorem isEmpty_iff_size_eq_zero (table : Replacements) : table.isEmpty ↔ table.size = 0 := by
  rw [isEmpty, size, List.isEmpty_iff_length_eq_zero]

/-! ## The standard entries -/

theorem hasDistinctKeys_standardEntries : HasDistinctKeys standardEntries := by
  unfold HasDistinctKeys
  decide +kernel

/-- No standard entry hides another. -/
theorem find?_standard_eq_some_iff :
    standard.find? key = some value ↔ (key, value) ∈ standardEntries := by
  have hreverse := hasDistinctKeys_standardEntries.perm standardEntries.reverse_perm.symm
  rw [find?_standard, lookup_eq_some_iff_mem hreverse, List.mem_reverse]

end

/-! ## Any number of layers -/

/-- How a table comes about: from nothing or from the standard entries, layer by layer. -/
inductive History where
  | blank
  | standard
  | layered (before : History) (extra : List (Text × Text))

namespace History

/-- The table that has come about. -/
def table : History → Replacements
  | blank => .empty
  | standard => .standard
  | layered before extra => before.table.layer extra

/-- The entries that were there at the start. -/
def original : History → List (Text × Text)
  | blank => []
  | standard => standardEntries
  | layered before _ => before.original

/-- The entries that were laid over them, all in one list. -/
def added : History → List (Text × Text)
  | blank => []
  | standard => []
  | layered before extra => before.added ++ extra

variable (h : History)

/-- Only the last entry for a key can be seen, or an original one if none was added. -/
theorem find?_table_eq_some_iff {key value : Text} :
    h.table.find? key = some value ↔
      IsLatest h.added key value ∨
        key ∉ h.added.map Prod.fst ∧ (key, value) ∈ h.original := by
  induction h with
  | blank => simp [table, added, original, isLatest_iff_lookup_reverse]
  | standard =>
    simp [table, added, original, isLatest_iff_lookup_reverse, find?_standard_eq_some_iff]
  | layered before extra ih =>
    rw [table, added, original, find?_layer_eq_some_iff, ih, isLatest_append_iff,
      List.map_append, List.mem_append, not_or, and_or_left, ← or_assoc, and_left_comm, and_assoc]

/-- The keys are those of all entries that there ever were. -/
theorem mem_keys_table {key : Text} :
    key ∈ h.table.keys ↔ key ∈ (h.original ++ h.added).map Prod.fst := by
  have hlayer : ∀ (t : Replacements) (extra : List (Text × Text)),
      key ∈ (t.layer extra).keys ↔ key ∈ t.keys ∨ key ∈ extra.map Prod.fst := by
    intro t extra
    rw [mem_keys_layer, List.mem_map, or_comm]
  induction h with
  | blank => simp [table, added, original, keys, empty]
  | standard =>
    have hempty : key ∉ Replacements.empty.keys := List.not_mem_nil
    rw [table, added, original, Replacements.standard, ofList, hlayer, List.append_nil]
    exact or_iff_right hempty
  | layered before extra ih =>
    rw [table, added, original, hlayer, ← List.append_assoc, List.map_append, List.mem_append]
    exact or_congr_left ih

theorem find?_table_eq_none_iff {key : Text} :
    h.table.find? key = none ↔ key ∉ h.added.map Prod.fst ∧ key ∉ h.original.map Prod.fst := by
  rw [← Option.not_isSome_iff_eq_none, ← mem_keys_iff, mem_keys_table, List.map_append,
    List.mem_append, not_or, and_comm]

/-- However a table comes about, a look-up gives the value of the last entry that was added for
exactly this key, or else the original value, or else nothing; the table is as long as there are
different keys among all entries, and empty if there are none. Layers one after the other are one
layer, those without a common key can change places, and tables are told apart by their look-ups
alone. -/
theorem table_lastWins :
    (∀ key value, h.table.find? key = some value ↔
      IsLatest h.added key value ∨ key ∉ h.added.map Prod.fst ∧ (key, value) ∈ h.original) ∧
    (∀ key, h.table.find? key = none ↔
      key ∉ h.added.map Prod.fst ∧ key ∉ h.original.map Prod.fst) ∧
    h.table.size = ((h.original ++ h.added).map Prod.fst).dedup.length ∧
    (h.table.isEmpty ↔ h.table.size = 0) ∧
    (∀ a b, ((h.layered a).layered b).table = (h.layered (a ++ b)).table) ∧
    (∀ a b, (a.map Prod.fst).Disjoint (b.map Prod.fst) →
      ((h.layered a).layered b).table = ((h.layered b).layered a).table) ∧
    ∀ other : History,
      h.table = other.table ↔ ∀ key, h.table.find? key = other.table.find? key := by
  refine ⟨fun _ _ => h.find?_table_eq_some_iff, fun _ => h.find?_table_eq_none_iff,
    size_eq_of_mem_keys_iff fun _ => h.mem_keys_table, isEmpty_iff_size_eq_zero h.table, ?_, ?_,
    ?_⟩
  · intro a b
    exact (layer_append h.table a b).symm
  · intro a b hdisjoint
    exact layer_comm hdisjoint h.table
  · intro other
    exact ⟨fun heq _ => by rw [heq], ext_find?⟩

/-- The standard table under two layers: a standard key is set twice in the first of them, and a
new key in both. -/
def relabelled : History :=
  (standard.layered
    [("\"OK\"".toList, ['a']), ("\"New\"".toList, ['b']), ("\"OK\"".toList, ['c'])]).layered
    [("\"New\"".toList, ['d'])]

/-- The last value counts for both keys, and they add one to the 35 standard ones. -/
theorem table_lastWins_relabelled :
    relabelled.table.find? "\"OK\"".toList = some ['c'] ∧
    relabelled.table.find? "\"New\"".toList = some ['d'] ∧
    relabelled.table.find? "\"Save\"".toList = some "t('common.save')".toList ∧
    relabelled.table.find? "\"OK \"".toList = none ∧
    relabelled.table.size = 36 ∧
    ((relabelled.layered [("\"OK\"".toList, ['e'])]).layered [("\"New\"".toList, ['f'])]).table =
      ((relabelled.layered [("\"New\"".toList, ['f'])]).layered [("\"OK\"".toList, ['e'])]).table
      := by
  obtain ⟨hsome, hnone, hsize, -, -, hcomm, -⟩ := table_lastWins relabelled
  refine ⟨?_, ?_, ?_, ?_, hsize.trans (by decide +kernel), hcomm _ _ (by simp)⟩
  · rw [hsome, isLatest_iff_lookup_reverse]
    exact .inl (by decide +kernel)
  · rw [hsome, isLatest_iff_lookup_reverse]
    exact .inl (by decide +kernel)
  · rw [hsome]
    exact .inr (by decide +kernel)
  · rw [hnone]
    decide +kernel

end History

end LiteralAudit.Replacements
