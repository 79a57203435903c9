import LiteralAudit.Host

/-!
# What the modelled machine answers

A path names a file or it does not, and a file holds the UTF-8 form of a text, is garbled or
cannot be read. The requests of the modelled machine are answered by this alone, and all but
writing and saying leave the machine as it was.
-/

namespace LiteralAudit

/-! ## Texts and bytes -/

theorem encodeText_eq (t : Text) : encodeText t = t.utf8Encode := by
  rw [encodeText, String.toUTF8, String.toByteArray_ofList]

/-- Decoding undoes encoding, and takes nothing else for a text. -/
theorem decodeText_eq_some_iff {bytes : ByteArray} {t : Text} :
    decodeText bytes = some t ↔ bytes = encodeText t := by
  rw [encodeText_eq, decodeText]
  constructor
  · intro h
    obtain ⟨chars, hchars, rfl⟩ := Option.map_eq_some_iff.1 h
    have hsome : bytes.utf8Decode?.isSome := by
      rw [hchars]
      rfl
    have hencode := @ByteArray.utf8Encode_get_utf8Decode? bytes hsome
    simp only [hchars, Option.get_some] at hencode
    exact hencode.symm
  · intro h
    rw [h, List.utf8Decode?_utf8Encode]
    rfl

theorem decodeText_encodeText (t : Text) : decodeText (encodeText t) = some t :=
  decodeText_eq_some_iff.2 rfl

/-! ## Files -/

/-- The file that a path names, links followed: its bytes, or why they cannot be read; nothing
if it names none. -/
def FileTree.file? (tree : FileTree) (here : Place) (p : Path) :
    Option (Except AccessFault ByteArray) :=
  match tree.locate .find here p with
  | .ok (.present place) =>
    match tree.at? place with
    | some (.file bytes) => some (.ok bytes)
    | some (.locked _ fault) => some (.error fault)
    | _ => none
  | _ => none

theorem FileTree.isFile_eq_isSome_file? (tree : FileTree) (here : Place) (p : Path) :
    tree.isFile here p = (tree.file? here p).isSome := by
  unfold isFile file?
  cases tree.locate .find here p with
  | error fault => rfl
  | ok spot =>
    cases spot with
    | vacant place => rfl
    | present place =>
      simp only
      cases tree.at? place with
      | none => rfl
      | some entry => cases entry <;> rfl

/-- Reading what is a file gives what there is to read in it. -/
theorem FileTree.read_of_file? {tree : FileTree} {here : Place} {p : Path}
    {content : Except AccessFault ByteArray} (h : tree.file? here p = some content) :
    tree.read here p = content := by
  unfold file? at h
  unfold read
  split at h
  · next place hlocate =>
    rw [hlocate]
    split at h
    · next bytes hat =>
      cases h
      simp only [hat]
    · next bytes fault hat =>
      cases h
      simp only [hat]
    · cases h
  · cases h

/-- What the paths of a program name: a file with what there is to read in it, or nothing. -/
abbrev Files := Path → Option (Except AccessFault ByteArray)

namespace Files

/-- The text in the file that a path names. -/
def source? (files : Files) (p : Path) : Option Text :=
  (files p).bind fun content => content.toOption.bind decodeText

/-- Why the file that a path names has no text to read; nothing if it has one, or if the path
names no file. -/
def fault? (files : Files) (p : Path) : Option AccessFault :=
  match files p with
  | none => none
  | some (.error fault) => some fault
  | some (.ok bytes) => if (decodeText bytes).isNone then some .notUtf8 else none

/-- A path is sound if it names no file, or one that can be read and holds a text. -/
def IsSound (files : Files) (p : Path) : Prop :=
  ∀ content, files p = some content → ∃ t, content = .ok (encodeText t)

/-- What can be wrong with the file that a path names. -/
inductive Faulty (files : Files) (p : Path) : AccessFault → Prop
  /-- It cannot be read. -/
  | locked {fault : AccessFault} (hfile : files p = some (.error fault)) : Faulty files p fault
  /-- Its bytes are not the UTF-8 form of a text. -/
  | garbled {bytes : ByteArray} (hfile : files p = some (.ok bytes))
      (hbytes : ∀ t, bytes ≠ encodeText t) : Faulty files p .notUtf8

theorem source?_eq_some_iff {files : Files} {p : Path} {t : Text} :
    files.source? p = some t ↔ files p = some (.ok (encodeText t)) := by
  rw [source?, Option.bind_eq_some_iff]
  constructor
  · rintro ⟨content, hfile, htext⟩
    cases content with
    | error fault => cases htext
    | ok bytes => rw [hfile, decodeText_eq_some_iff.1 htext]
  · intro h
    exact ⟨_, h, decodeText_encodeText t⟩

theorem fault?_eq_some_iff {files : Files} {p : Path} {fault : AccessFault} :
    files.fault? p = some fault ↔ files.Faulty p fault := by
  constructor
  · intro h
    unfold fault? at h
    split at h
    · cases h
    · next hfile =>
      cases h
      exact .locked hfile
    · next bytes hfile =>
      split at h
      · next hnone =>
        cases h
        refine .garbled hfile ?_
        rintro t rfl
        rw [decodeText_encodeText] at hnone
        cases hnone
      · cases h
  · intro h
    cases h with
    | locked hfile => rw [fault?, hfile]
    | @garbled bytes hfile hbytes =>
      have hnone : decodeText bytes = none :=
        Option.eq_none_iff_forall_ne_some.2 fun t ht => hbytes t (decodeText_eq_some_iff.1 ht)
      simp [fault?, hfile, hnone]

theorem fault?_eq_none_iff {files : Files} {p : Path} :
    files.fault? p = none ↔ files.IsSound p := by
  rw [Option.eq_none_iff_forall_ne_some]
  simp only [ne_eq, fault?_eq_some_iff]
  constructor
  · intro h content hfile
    cases content with
    | error fault => exact absurd (.locked hfile) (h fault)
    | ok bytes =>
      cases htext : decodeText bytes with
      | some t => exact ⟨t, congrArg _ (decodeText_eq_some_iff.1 htext)⟩
      | none =>
        refine absurd (.garbled hfile ?_) (h .notUtf8)
        rintro t rfl
        rw [decodeText_encodeText] at htext
        cases htext
  · rintro h fault (hfile | ⟨hfile, hbytes⟩)
    · obtain ⟨t, ht⟩ := h _ hfile
      cases ht
    · obtain ⟨t, ht⟩ := h _ hfile
      cases ht
      exact hbytes t rfl

/-- Only a file with something wrong has no text. -/
theorem eq_none_of_source?_eq_none {files : Files} {p : Path} (hfault : files.fault? p = none)
    (h : files.source? p = none) : files p = none := by
  rw [fault?_eq_none_iff] at hfault
  cases hfile : files p with
  | none => rfl
  | some content =>
    obtain ⟨t, rfl⟩ := hfault _ hfile
    rw [source?_eq_some_iff.2 hfile] at h
    cases h

end Files

/-! ## Requests -/

namespace World

/-- What paths name on a machine. -/
def files (w : World) : Files := w.tree.file? w.here

/-- The run of a program whose first part is known. -/
theorem run_bind {α β : Type} {x : StateM World α} {w w' : World} {a : α}
    (h : x.run w = (a, w')) (f : α → StateM World β) : (x >>= f).run w = (f a).run w' := by
  show (f (x.run w).1).run (x.run w).2 = _
  rw [h]

/-- A program only looks if it leaves every machine as it was. -/
def Looks {α : Type} (x : StateM World α) : Prop := ∀ w, (x.run w).2 = w

theorem Looks.run_eq {α : Type} {x : StateM World α} (h : Looks x) (w : World) :
    x.run w = ((x.run w).1, w) := Prod.ext rfl (h w)

theorem Looks.pure {α : Type} (a : α) : Looks (Pure.pure a) := fun _ => rfl

theorem Looks.bind {α β : Type} {x : StateM World α} {f : α → StateM World β} (hx : Looks x)
    (hf : ∀ a, Looks (f a)) : Looks (x >>= f) := by
  intro w
  rw [run_bind (hx.run_eq w)]
  exact hf _ w

theorem looks_directory : Looks host.directory := fun _ => rfl

theorem looks_keyOrder : Looks host.keyOrder := fun _ => rfl

theorem looks_isPresent (p : Path) : Looks (host.isPresent p) := fun _ => rfl

theorem looks_readText (p : Path) : Looks (host.readText p) := by
  have hread : Looks (host.read p) := fun _ => rfl
  refine hread.bind fun result => ?_
  cases result with
  | error fault => exact .pure _
  | ok bytes =>
    simp only
    cases decodeText bytes <;> exact .pure _

/-- What is written changes the tree, if anything. -/
theorem run_write (w : World) (p : Path) (bytes : ByteArray) :
    (host.write p bytes).run w =
      match w.tree.write w.here p bytes with
      | .ok tree => (.ok (), { w with tree })
      | .error fault => (.error fault, w) := by
  have hget : (get : StateM World World).run w = (w, w) := rfl
  unfold host
  simp only
  rw [run_bind hget, run_bind hget]
  cases w.tree.write w.here p bytes <;> rfl

theorem run_isFile (w : World) (p : Path) :
    (host.isFile p).run w = ((w.files p).isSome, w) := by
  rw [files, ← FileTree.isFile_eq_isSome_file?]
  rfl

/-- The file that a path names is read if it has a text to read. -/
theorem run_readText {w : World} {p : Path} {content : Except AccessFault ByteArray}
    (h : w.files p = some content) :
    (host.readText p).run w =
      (match content with
       | .error fault => .error fault
       | .ok bytes =>
         match decodeText bytes with
         | some t => .ok t
         | none => .error .notUtf8, w) := by
  have hread : (host.read p).run w = (content, w) := by
    show (w.tree.read w.here p, w) = _
    rw [FileTree.read_of_file? h]
  unfold Host.readText
  rw [run_bind hread]
  cases content with
  | error fault => rfl
  | ok bytes =>
    simp only
    cases decodeText bytes <;> rfl

end World

end LiteralAudit
