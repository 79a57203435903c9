import LiteralAudit.Text

/-!
Tables of replacements: which expression to write in place of a literal. A
table is a finite map from literals, with their quotes, to expressions. It is
kept as a list with ascending keys, so that two tables with the same look-ups
are the same list, and so that listing a table needs no further sorting. The
order of keys is that of their characters, which is also the order of their
bytes in UTF-8.
-/

namespace LiteralAudit

/-- A finite map from literals to expressions. -/
structure Replacements where
  /-- The keys with their values, in ascending order of the keys. -/
  entries : List (Text × Text)
  ascending : entries.Pairwise fun a b => a.1 < b.1

/-- An order in which the keys of a table are gone through. -/
structure KeyOrder where
  /-- The keys in this order. -/
  arrange : List Text → List Text
  perm (keys : List Text) : (arrange keys).Perm keys

/-- The order in which tables are kept. -/
def KeyOrder.ascending : KeyOrder := ⟨id, .refl⟩

namespace Replacements

/-- The table without entries. -/
def empty : Replacements := ⟨[], .nil⟩

instance : EmptyCollection Replacements := ⟨empty⟩
instance : Inhabited Replacements := ⟨empty⟩

@[ext] theorem ext {s t : Replacements} (h : s.entries = t.entries) : s = t := by
  cases s; cases t; simp_all

instance : DecidableEq Replacements := fun s t =>
  decidable_of_iff (s.entries = t.entries) ⟨ext, fun h => h ▸ rfl⟩

/-- Sets the value of one key in a list with ascending keys. -/
def put (key value : Text) : List (Text × Text) → List (Text × Text)
  | [] => [(key, value)]
  | entry :: rest =>
    if key = entry.1 then (key, value) :: rest
    else if key < entry.1 then (key, value) :: entry :: rest
    else entry :: put key value rest

theorem mem_put {key value : Text} {entries : List (Text × Text)} {e : Text × Text} :
    e ∈ put key value entries → e = (key, value) ∨ e ∈ entries := by
  induction entries with
  | nil => simp [put]
  | cons entry rest ih =>
    simp only [put]
    split
    · simp only [List.mem_cons]
      exact fun h => h.imp_right .inr
    · split
      · simp
      · simp only [List.mem_cons]
        rintro (h | h)
        · exact .inr (.inl h)
        · exact (ih h).imp_right .inr

/-- Keys stay in ascending order. -/
theorem pairwise_put (key value : Text) {entries : List (Text × Text)}
    (h : entries.Pairwise fun a b => a.1 < b.1) :
    (put key value entries).Pairwise fun a b => a.1 < b.1 := by
  induction entries with
  | nil => simp [put]
  | cons entry rest ih =>
    obtain ⟨hhead, hrest⟩ := List.pairwise_cons.1 h
    simp only [put]
    split
    · next heq => exact List.pairwise_cons.2 ⟨fun e he => heq ▸ hhead e he, hrest⟩
    · next hne =>
      split
      · next hlt =>
        refine List.pairwise_cons.2 ⟨fun e he => ?_, h⟩
        rcases List.mem_cons.1 he with rfl | he
        · exact hlt
        · exact List.lt_trans hlt (hhead e he)
      · next hnlt =>
        have hgt : entry.1 < key := by
          rcases Std.lt_trichotomy key entry.1 with h | h | h
          · exact absurd h hnlt
          · exact absurd h hne
          · exact h
        refine List.pairwise_cons.2 ⟨fun e he => ?_, ih hrest⟩
        rcases mem_put he with rfl | he
        · exact hgt
        · exact hhead e he

theorem lookup_put_self (key value : Text) (entries : List (Text × Text)) :
    (put key value entries).lookup key = some value := by
  induction entries with
  | nil => simp [put]
  | cons entry rest ih =>
    obtain ⟨there, kept⟩ := entry
    simp only [put]
    split
    · simp
    · next hne =>
      have hb : (key == there) = false := beq_eq_false_iff_ne.2 hne
      split
      · simp
      · simpa [List.lookup_cons, hb] using ih

theorem lookup_put_of_ne {key other : Text} (value : Text) (entries : List (Text × Text))
    (h : other ≠ key) : (put key value entries).lookup other = entries.lookup other := by
  have hb : (other == key) = false := beq_eq_false_iff_ne.2 h
  induction entries with
  | nil => simp [put, List.lookup_cons, hb]
  | cons entry rest ih =>
    obtain ⟨there, kept⟩ := entry
    simp only [put]
    split
    · next heq =>
      have heq : key = there := heq
      simp [List.lookup_cons, hb, ← heq]
    · split
      · simp [List.lookup_cons, hb]
      · simp only [List.lookup_cons, ih]

/-- The table with one key set; an older value of the key is lost. -/
def insert (table : Replacements) (key value : Text) : Replacements :=
  ⟨put key value table.entries, pairwise_put key value table.ascending⟩

/-- The table with further entries laid over it. Among entries with the same
key the last one counts. -/
def layer (table : Replacements) (extra : List (Text × Text)) : Replacements :=
  extra.foldl (fun table (key, value) => table.insert key value) table

/-- The table of a list of entries, of which the last with a key counts. -/
def ofList (entries : List (Text × Text)) : Replacements := empty.layer entries

/-- The expression for a literal. The literal has to agree with the key
character for character. -/
def find? (table : Replacements) (literal : Text) : Option Text :=
  table.entries.lookup literal

/-- The keys in ascending order. -/
def keys (table : Replacements) : List Text := table.entries.map Prod.fst

/-- The number of keys. -/
def size (table : Replacements) : Nat := table.entries.length

def isEmpty (table : Replacements) : Bool := table.entries.isEmpty

@[simp] theorem find?_empty (literal : Text) : empty.find? literal = none := rfl

@[simp] theorem find?_insert_self (table : Replacements) (key value : Text) :
    (table.insert key value).find? key = some value :=
  lookup_put_self key value table.entries

theorem find?_insert_of_ne (table : Replacements) {key literal : Text} (value : Text)
    (h : literal ≠ key) : (table.insert key value).find? literal = table.find? literal :=
  lookup_put_of_ne value table.entries h

/-- Layering two lists one after the other is layering both at once. -/
theorem layer_append (table : Replacements) (a b : List (Text × Text)) :
    table.layer (a ++ b) = (table.layer a).layer b := by
  simp [layer, List.foldl_append]

end Replacements

end LiteralAudit
