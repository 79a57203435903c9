import LiteralAudit.Proofs.Audit.Sources
import LiteralAudit.Proofs.FileTree.Absolute
import LiteralAudit.Proofs.Settings.RoundTrip
import LiteralAudit.Proofs.Settings.Rules
import LiteralAudit.Starter

/-!
# A settings file to start from

The file that is written holds the standard settings. An audit that had no settings file to
use before finds this one, if any, and comes to the same settings as without it.
-/

namespace LiteralAudit

/-- Two paths name the same if they lead to one place, links followed. -/
def World.NamesSame (w : World) (p q : Path) : Prop :=
  ∃ place, w.tree.locate .find w.here p = .ok (.present place) ∧
    w.tree.locate .find w.here q = .ok (.present place)

instance (w : World) (p q : Path) : Decidable (w.NamesSame p q) :=
  match h : w.tree.locate .find w.here p with
  | .ok (.present place) =>
    decidable_of_iff (w.tree.locate .find w.here q = .ok (.present place))
      ⟨fun hq => ⟨place, h, hq⟩, fun ⟨_, hp, hq⟩ => by rw [h] at hp; cases hp; exact hq⟩
  | .ok (.vacant _) => .isFalse fun ⟨_, hp, _⟩ => by rw [h] at hp; cases hp
  | .error _ => .isFalse fun ⟨_, hp, _⟩ => by rw [h] at hp; cases hp

namespace Starter

/-- The file is made if its path names nothing, and nothing else is done to the machine. -/
theorem run_create (colour : Bool) (directory : Path) (w : World) :
    (create World.host colour directory).run w =
      if w.has (Path.join directory Settings.fileName) then
        (.ok .declined, w.say .errors alreadyThere)
      else
        match w.tree.write w.here (Path.join directory Settings.fileName)
            (encodeText Settings.standardText) with
        | .ok tree =>
          (.ok .success, ({ w with tree } : World).say .output (created colour))
        | .error fault =>
          (.error (.unwritable (Path.join directory Settings.fileName) fault), w) := by
  unfold create
  simp only
  rw [World.run_bind (World.run_isPresent w _)]
  by_cases hpresent : w.has (Path.join directory Settings.fileName)
  · rw [if_pos hpresent, if_pos hpresent]
    rfl
  rw [if_neg hpresent, if_neg hpresent]
  have hwrite := World.run_write w (Path.join directory Settings.fileName)
    (encodeText Settings.standardText)
  cases hresult : w.tree.write w.here (Path.join directory Settings.fileName)
      (encodeText Settings.standardText) with
  | error fault =>
    rw [hresult] at hwrite
    rw [World.run_bind hwrite]
    rfl
  | ok tree =>
    rw [hresult] at hwrite
    rw [World.run_bind hwrite]
    rfl

/-! ## The file is there -/

/-- The path of the file, in the directory where the program runs. -/
def path : Path := Path.join [Path.dot] Settings.fileName

theorem run_create_path (colour : Bool) (w : World) :
    (create World.host colour [Path.dot]).run w =
      if w.has path then (.ok .declined, w.say .errors alreadyThere)
      else
        match w.tree.write w.here path (encodeText Settings.standardText) with
        | .ok tree =>
          (.ok .success, ({ w with tree } : World).say .output (created colour))
        | .error fault => (.error (.unwritable path fault), w) :=
  run_create colour [Path.dot] w

theorem isName_fileName : FileTree.IsName Settings.fileName := by
  constructor <;> decide

/-- The standard settings are read back, and they obey the rules. -/
theorem check_standardText (order : KeyOrder) (p : Path) :
    Settings.check order p Settings.standardText = .ok .standard := by
  have hread : Settings.ofText Settings.standardText = .ok .standard :=
    Settings.ofText_toTextListing (by decide) (by decide) (.refl _)
  rw [Settings.check, hread]
  simp only [Settings.violation?_standard order]

/-- The second machine is the first one with a file of the standard settings where nothing
was; what was said on them may differ. -/
structure Starts (place : Place) (w w' : World) : Prop where
  located : w.tree.locate .find w.here path = .ok (.vacant place)
  tree : w'.tree = w.tree.set place (.file (encodeText Settings.standardText))
  here : w'.here = w.here
  order : w'.order = w.order

/-- A file is made only where its path came to a vacant place. -/
theorem exists_vacant_of_create {colour : Bool} {directory : Path} {w w' : World}
    (h : (create World.host colour directory).run w = (.ok .success, w')) :
    ∃ place,
      w.tree.locate .find w.here (Path.join directory Settings.fileName) = .ok (.vacant place) ∧
      w' = ({ w with tree := w.tree.set place (.file (encodeText Settings.standardText)) } :
        World).say .output (created colour) := by
  rw [run_create] at h
  split at h
  · cases h
  next hpresent =>
    unfold FileTree.write at h
    cases hlocate : w.tree.locate .create w.here (Path.join directory Settings.fileName) with
    | error fault =>
      rw [hlocate] at h
      cases h
    | ok spot =>
      rw [hlocate] at h
      -- the place is vacant, since a path that can be looked up to write is found likewise
      have hfind := FileTree.locate_find_of_create hlocate
      cases spot with
      | present place => exact absurd (FileTree.isPresent_iff.2 ⟨place, hfind⟩) hpresent
      | vacant place =>
        simp only at h
        split at h
        · next tree hwrite =>
          split at hwrite
          · cases hwrite
          · cases hwrite
            cases h
            exact ⟨place, hfind, rfl⟩
        · cases h

theorem starts_of_create {colour : Bool} {w w' : World}
    (h : (create World.host colour [Path.dot]).run w = (.ok .success, w')) :
    ∃ place, Starts place w w' := by
  obtain ⟨place, hlocated, rfl⟩ := exists_vacant_of_create h
  exact ⟨place, hlocated, rfl, rfl, rfl⟩

namespace Starts

variable {place : Place} {w w' : World} {p : Path}

theorem vacant (h : Starts place w w') : w.tree.at? place = none :=
  FileTree.at?_eq_none_of_locate h.located

/-- Now its path names the file. -/
theorem locate_path (h : Starts place w w') :
    w'.tree.locate .find w'.here path = .ok (.present place) := by
  rw [h.tree, h.here]
  exact FileTree.locate_set_file_self h.located _

theorem has_of_has (h : Starts place w w') (hp : w.has p) : w'.has p := by
  rw [World.has, h.tree, h.here]
  exact FileTree.isPresent_set_file h.vacant _ hp

/-- A path that names something only now names the file. -/
theorem text_of_has (h : Starts place w w') (hp : w'.has p) (hbefore : ¬ w.has p) :
    w'.text p = .ok Settings.standardText := by
  rw [World.has, h.tree, h.here] at hp
  have hlocate := FileTree.locate_of_isPresent_set_file h.vacant hp hbefore
  apply World.text_of_read
  rw [h.tree, h.here]
  exact FileTree.read_of_locate hlocate
    (FileTree.at?_set_self _ (FileTree.ne_nil_of_at?_eq_none h.vacant))

/-- A search that found nothing before finds the file, if anything. -/
theorem text_of_found? (h : Starts place w w') {directories : List Path}
    (hnone : Settings.found? w directories = none)
    (hfound : Settings.found? w' directories = some p) :
    w'.text p = .ok Settings.standardText := by
  induction directories with
  | nil => cases hfound
  | cons directory outer ih =>
    rw [Settings.found?] at hnone hfound
    by_cases hbefore : w.has (Path.join directory Settings.fileName)
    · rw [if_pos hbefore] at hnone
      cases hnone
    rw [if_neg hbefore] at hnone
    by_cases hafter : w'.has (Path.join directory Settings.fileName)
    · rw [if_pos hafter] at hfound
      cases hfound
      exact h.text_of_has hafter hbefore
    rw [if_neg hafter] at hfound
    -- a boundary from before still ends the search; one that is there only now (the file may
    -- have been made through a link) ends it early, and then nothing is found
    by_cases hboundary : w.has (Path.join directory Settings.boundaryName)
    · rw [if_pos (h.has_of_has hboundary)] at hfound
      cases hfound
    rw [if_neg hboundary] at hnone
    by_cases hboundary' : w'.has (Path.join directory Settings.boundaryName)
    · rw [if_pos hboundary'] at hfound
      cases hfound
    rw [if_neg hboundary'] at hfound
    exact ih hnone hfound

/-! ## Other paths -/

theorem locate_ne (h : Starts place w w') (hother : ¬ w'.NamesSame p path) :
    (w.tree.set place (.file (encodeText Settings.standardText))).locate .find w.here p ≠
      .ok (.present place) := by
  rw [← h.tree, ← h.here]
  exact fun heq => hother ⟨place, heq, h.locate_path⟩

/-- A path that does not name the file leads to the text that it led to before, unless it goes
on behind the file. -/
theorem text_of_not_namesSame (h : Starts place w w') (hother : ¬ w'.NamesSame p path) :
    w'.text p = w.text p ∨ w.text p = .error .missing ∧ w'.text p = .error .notDirectory := by
  unfold World.text
  rw [h.tree, h.here]
  rcases FileTree.read_set_file h.vacant (h.locate_ne hother) with heq | ⟨hbefore, hafter⟩
  · exact .inl (by rw [heq])
  · exact .inr (by rw [hbefore, hafter]; exact ⟨rfl, rfl⟩)

theorem files_of_not_namesSame (h : Starts place w w') (hother : ¬ w'.NamesSame p path) :
    w'.files p = w.files p := by
  rw [World.files, World.files, h.tree, h.here]
  exact FileTree.file?_set_file h.vacant (h.locate_ne hother)

/-! ## The settings -/

theorem loadOn_of_text (hp : w'.text p = .ok Settings.standardText) :
    Settings.loadOn w' p = .ok .standard := by
  rw [Settings.loadOn, hp]
  exact check_standardText w'.order p

theorem searched_eq (h : Starts place w w') : Settings.searched w' = Settings.searched w := by
  rw [Settings.searched, Settings.searched, h.here]

/-- The file is made only in a directory that is still there, and making it does not take the
directory away. -/
theorem directory_eq_ok (h : Starts place w w') :
    w.directory = .ok (World.pathOf w.here) ∧ w'.directory = .ok (World.pathOf w.here) := by
  have hthere : w.tree.isDirectory w.here :=
    FileTree.isDirectory_of_locate_join_dot isName_fileName h.located
  have hthere' : w'.tree.isDirectory w'.here := by
    rw [h.tree, h.here, FileTree.isDirectory_set_file h.vacant]
    exact hthere
  exact ⟨World.directory_eq_ok hthere, by rw [World.directory_eq_ok hthere', h.here]⟩

/-- With the file and without it the settings are the standard ones. -/
theorem settingsOn_eq (h : Starts place w w')
    (hnone : Settings.found? w (Settings.searched w) = none) {options : Options}
    (hconfig : options.config = none) :
    Audit.settingsOn options w = .ok .standard ∧ Audit.settingsOn options w' = .ok .standard := by
  obtain ⟨hdirectory, hdirectory'⟩ := h.directory_eq_ok
  rw [Settings.searched] at hnone
  rw [Audit.settingsOn_eq, Audit.settingsOn_eq, hconfig, hdirectory, hdirectory']
  simp only [hnone, true_and]
  cases hfound : Settings.found? w' (Path.ancestors (World.pathOf w.here)) with
  | none => rfl
  | some p => exact loadOn_of_text (h.text_of_found? hnone hfound)

/-- From where it is, a search finds the file, unless its absolute path is too long. -/
theorem found?_eq (h : Starts place w w') (hreachable : w.tree.IsReachable w.here)
    (hshort : (Path.join (World.pathOf w.here) Settings.fileName).length ≤
      FileTree.longestPath) :
    Settings.found? w' (Settings.searched w') =
      some (Path.join (World.pathOf w.here) Settings.fileName) := by
  have hreachable' : w'.tree.IsReachable w.here := by
    rw [h.tree]
    exact hreachable.set_file h.vacant _
  -- both paths come to the name of the file, looked up from the directory
  have hlocate : w'.tree.locate .find w.here (Path.join (World.pathOf w.here) Settings.fileName) =
      w'.tree.locate .find w.here path := by
    rw [FileTree.locate_join_pathOf hreachable' isName_fileName hshort, path,
      FileTree.locate_join_dot isName_fileName]
  have hthere := h.locate_path
  rw [h.here, ← hlocate] at hthere
  have hhas : w'.has (Path.join (World.pathOf w.here) Settings.fileName) := by
    rw [World.has, h.here]
    exact FileTree.isPresent_iff.2 ⟨place, hthere⟩
  rw [h.searched_eq, Settings.searched, Path.ancestors, List.cons_append, Settings.found?,
    if_pos hhas]

/-- Then the settings are taken from the file. -/
theorem discovered_eq (h : Starts place w w')
    (hnone : Settings.found? w (Settings.searched w) = none)
    (hreachable : w.tree.IsReachable w.here)
    (hshort : (Path.join (World.pathOf w.here) Settings.fileName).length ≤
      FileTree.longestPath) :
    Settings.discovered w' (Settings.searched w') = .ok ⟨.standard, true⟩ := by
  have hfound := h.found?_eq hreachable hshort
  have htext := h.text_of_found? hnone (h.searched_eq ▸ hfound)
  rw [Settings.discovered, hfound]
  simp only [loadOn_of_text htext]
  rfl

end Starts

end Starter

end LiteralAudit
