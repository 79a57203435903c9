import LiteralAudit.Replacements.Standard
import Mathlib.Data.List.Dedup

/-!
# Tables as finite maps

A table is known by its look-ups: two tables that answer alike are the same. What is
laid over a table counts before it, and the last entry for a key before the others.
Entries with different keys may therefore be laid over a table in any order.
-/

namespace LiteralAudit.Replacements

/-! ## Lists of entries -/

/-- No key stands in the list twice. -/
def HasDistinctKeys (entries : List (Text × Text)) : Prop :=
  entries.Pairwise fun a b => a.1 ≠ b.1

theorem lookup_eq_some_iff_mem {entries : List (Text × Text)} (h : HasDistinctKeys entries)
    {key value : Text} : entries.lookup key = some value ↔ (key, value) ∈ entries := by
  induction entries with
  | nil => simp
  | cons entry rest ih =>
    obtain ⟨there, kept⟩ := entry
    obtain ⟨hhead, hrest⟩ := List.pairwise_cons.1 h
    by_cases hkey : key = there
    · subst hkey
      have hnot : (key, value) ∉ rest := fun hmem => hhead (key, value) hmem rfl
      simp [hnot, eq_comm]
    · have hb : (key == there) = false := beq_eq_false_iff_ne.2 hkey
      rw [List.lookup_cons, hb, List.mem_cons, Prod.mk.injEq]
      simp only [hkey, false_and, false_or]
      exact ih hrest

theorem HasDistinctKeys.perm {a b : List (Text × Text)} (ha : HasDistinctKeys a)
    (h : a.Perm b) : HasDistinctKeys b :=
  (h.pairwise_iff fun hne => hne.symm).1 ha

/-- With different keys, the order of the entries is nothing to a look-up. -/
theorem lookup_eq_of_perm {a b : List (Text × Text)} (ha : HasDistinctKeys a) (h : a.Perm b)
    (key : Text) : a.lookup key = b.lookup key := by
  apply Option.ext
  intro value
  rw [lookup_eq_some_iff_mem ha, lookup_eq_some_iff_mem (ha.perm h)]
  exact h.mem_iff

/-! ## Tables -/

theorem hasDistinctKeys (table : Replacements) : HasDistinctKeys table.entries := by
  refine table.ascending.imp ?_
  intro a b hlt heq
  rw [heq] at hlt
  exact List.lt_irrefl _ hlt

/-- A table is determined by its look-ups. -/
theorem ext_find? {s t : Replacements} (h : ∀ literal, s.find? literal = t.find? literal) :
    s = t := by
  have hmem : ∀ entry, entry ∈ s.entries ↔ entry ∈ t.entries := by
    rintro ⟨key, value⟩
    rw [← lookup_eq_some_iff_mem s.hasDistinctKeys, ← lookup_eq_some_iff_mem t.hasDistinctKeys]
    exact iff_of_eq (congrArg (· = some value) (h key))
  have hnodup : ∀ table : Replacements, table.entries.Nodup := by
    intro table
    refine table.hasDistinctKeys.imp ?_
    intro a b hne heq
    exact hne (congrArg Prod.fst heq)
  have hperm : s.entries.Perm t.entries :=
    (List.perm_ext_iff_of_nodup (hnodup s) (hnodup t)).2 hmem
  refine ext (hperm.eq_of_pairwise ?_ s.ascending t.ascending)
  intro a b _ _ hab hba
  exact absurd hba (List.lt_asymm hab)

/-- Among the entries laid over a table the last with a key counts, and the table only
if there is none. -/
theorem find?_layer (table : Replacements) (extra : List (Text × Text)) (literal : Text) :
    (table.layer extra).find? literal =
      (extra.reverse.lookup literal).or (table.find? literal) := by
  induction extra generalizing table with
  | nil => rfl
  | cons entry rest ih =>
    obtain ⟨key, value⟩ := entry
    have hstep : table.layer ((key, value) :: rest) = (table.insert key value).layer rest := rfl
    rw [hstep, ih, List.reverse_cons, List.lookup_append, Option.or_assoc]
    congr 1
    by_cases hkey : literal = key
    · subst hkey
      simp
    · have hb : (literal == key) = false := beq_eq_false_iff_ne.2 hkey
      rw [find?_insert_of_ne table value hkey, List.lookup_cons, hb]
      rfl

/-- The entries of a table in any order make the table again. -/
theorem ofList_perm {table : Replacements} {entries : List (Text × Text)}
    (h : entries.Perm table.entries) : ofList entries = table := by
  apply ext_find?
  intro literal
  have hperm : table.entries.Perm entries.reverse := h.symm.trans entries.reverse_perm.symm
  rw [ofList, find?_layer, find?_empty, Option.or_none, find?,
    lookup_eq_of_perm table.hasDistinctKeys hperm]

/-- Of a table's own entries, the last for a key is the only one. -/
theorem find?_layer_entries (table upper : Replacements) (literal : Text) :
    (table.layer upper.entries).find? literal = (upper.find? literal).or (table.find? literal) := by
  rw [find?_layer, lookup_eq_of_perm (upper.hasDistinctKeys.perm upper.entries.reverse_perm.symm)
    upper.entries.reverse_perm]
  rfl

/-- The standard table need not be put together to look something up. -/
theorem find?_standard (literal : Text) :
    standard.find? literal = standardEntries.reverse.lookup literal := by
  rw [standard, ofList, find?_layer, find?_empty, Option.or_none]

/-! ## Keys -/

theorem nodup_keys (table : Replacements) : table.keys.Nodup :=
  List.pairwise_map.2 table.hasDistinctKeys

theorem mem_keys_iff {table : Replacements} {key : Text} :
    key ∈ table.keys ↔ (table.find? key).isSome := by
  rw [Option.isSome_iff_exists, keys, List.mem_map]
  constructor
  · rintro ⟨⟨_, value⟩, hmem, rfl⟩
    exact ⟨value, (lookup_eq_some_iff_mem table.hasDistinctKeys).2 hmem⟩
  · rintro ⟨value, hfind⟩
    exact ⟨(key, value), (lookup_eq_some_iff_mem table.hasDistinctKeys).1 hfind, rfl⟩

/-- What is laid over a table adds its keys to it. -/
theorem mem_keys_layer {table : Replacements} {extra : List (Text × Text)} {key : Text} :
    key ∈ (table.layer extra).keys ↔ (∃ entry ∈ extra, entry.1 = key) ∨ key ∈ table.keys := by
  have hextra : (extra.reverse.lookup key).isSome ↔ ∃ entry ∈ extra, entry.1 = key := by
    simp only [List.lookup_isSome_iff, List.mem_reverse, beq_iff_eq, eq_comm (a := key)]
  rw [mem_keys_iff, find?_layer, Option.isSome_or, Bool.or_eq_true, hextra, mem_keys_iff]

/-- A table is as long as there are different keys. -/
theorem size_eq_of_mem_keys_iff {table : Replacements} {literals : List Text}
    (h : ∀ key, key ∈ table.keys ↔ key ∈ literals) : table.size = literals.dedup.length := by
  have hperm : table.keys.Perm literals.dedup := by
    rw [List.perm_ext_iff_of_nodup table.nodup_keys literals.nodup_dedup]
    intro key
    rw [List.mem_dedup]
    exact h key
  rw [← hperm.length_eq, keys, List.length_map, size]

end LiteralAudit.Replacements
