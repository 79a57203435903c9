import LiteralAudit.Proofs.Program.Starter

/-!
# A settings file is made once

A run that makes a settings file writes over nothing: it declines if its path names anything, and
otherwise it makes the file where nothing was, or fails and leaves the machine as it was. A file
that was made makes every later run decline, for as long as the path goes on naming something. And
nothing else that the program does changes a file.
-/

namespace LiteralAudit

namespace Starter

variable {directory : Path} {colour : Bool} {w w' : World} {answer : Except Trouble Status}

/-! ## One run -/

/-- The path of the settings file of a directory. -/
def pathIn (directory : Path) : Path := Path.join directory Settings.fileName

/-- The second machine is the first one with a new file of the standard settings, which the path
names. -/
structure Adds (directory : Path) (place : Place) (w w' : World) : Prop where
  vacant : w.tree.at? place = none
  made : w'.tree.at? place = some (.file (encodeText Settings.standardText))
  named : w'.tree.locate .find w'.here (pathIn directory) = .ok (.present place)
  others : ∀ other, other ≠ place → w'.tree.at? other = w.tree.at? other
  here : w'.here = w.here

/-- How a run ends that is to make a settings file. -/
inductive Ends (directory : Path) (colour : Bool) (w : World) :
    Except Trouble Status → World → Prop where
  /-- The path names something, and nothing is done. -/
  | declined (hpresent : w.has (pathIn directory)) :
      Ends directory colour w (.ok .declined) (w.say .errors alreadyThere)
  /-- The path named nothing, and now it names the new file. -/
  | made {place : Place} {after : World} (habsent : ¬ w.has (pathIn directory))
      (hadds : Adds directory place w after) (houtput : after.output = w.output ++ created colour)
      (herrors : after.errors = w.errors) : Ends directory colour w (.ok .success) after
  /-- The path names nothing, and the file cannot be made. -/
  | failed {fault : AccessFault} (habsent : ¬ w.has (pathIn directory)) :
      Ends directory colour w (.error (.unwritable (pathIn directory) fault)) w

theorem adds_of_locate {place : Place}
    (h : w.tree.locate .find w.here (pathIn directory) = .ok (.vacant place))
    (htree : w'.tree = w.tree.set place (.file (encodeText Settings.standardText)))
    (hhere : w'.here = w.here) : Adds directory place w w' := by
  have hvacant := FileTree.at?_eq_none_of_locate h
  refine ⟨hvacant, ?_, ?_, ?_, hhere⟩
  · rw [htree]
    exact FileTree.at?_set_self _ (FileTree.ne_nil_of_at?_eq_none hvacant)
  · rw [htree, hhere]
    exact FileTree.locate_set_file_self h _
  · intro other hne
    rw [htree]
    exact FileTree.at?_set_of_ne _ hne

theorem Adds.has {place : Place} (h : Adds directory place w w') : w'.has (pathIn directory) :=
  FileTree.isPresent_iff.2 ⟨place, h.named⟩

theorem Adds.tree_ne {place : Place} (h : Adds directory place w w') : w'.tree ≠ w.tree := by
  intro heq
  have hmade := h.made
  rw [heq, h.vacant] at hmade
  cases hmade

theorem ends_of_create (h : (create World.host colour directory).run w = (answer, w')) :
    Ends directory colour w answer w' := by
  cases answer with
  | error trouble =>
    rw [run_create] at h
    split at h
    · cases h
    next habsent =>
    split at h
    · cases h
    · cases h
      exact .failed habsent
  | ok status =>
    cases status with
    | declined =>
      rw [run_create] at h
      split at h
      · next hpresent =>
        cases h
        exact .declined hpresent
      · split at h <;> cases h
    | success =>
      obtain ⟨place, hlocate, rfl⟩ := exists_vacant_of_create h
      have habsent : ¬ w.has (pathIn directory) := by
        intro hpresent
        obtain ⟨other, hother⟩ := FileTree.isPresent_iff.1 hpresent
        cases hlocate.symm.trans hother
      exact .made habsent (adds_of_locate hlocate rfl rfl) rfl rfl

/-- A run never takes the path away. -/
theorem Ends.has_of_has (h : Ends directory colour w answer w')
    (hpresent : w.has (pathIn directory)) : w'.has (pathIn directory) := by
  cases h with
  | declined _ => exact hpresent
  | made _ hadds _ _ => exact hadds.has
  | failed _ => exact hpresent

/-- Where the path names something, a run declines and changes no file. -/
theorem Ends.of_has (h : Ends directory colour w answer w') (hpresent : w.has (pathIn directory)) :
    answer = .ok .declined ∧ w'.tree = w.tree := by
  cases h with
  | declined _ => exact ⟨rfl, rfl⟩
  | made habsent _ _ _ => exact absurd hpresent habsent
  | failed habsent => exact absurd hpresent habsent

/-- A run that changes a file succeeds, and it makes the path name it. -/
theorem Ends.of_tree_ne (h : Ends directory colour w answer w') (hne : w'.tree ≠ w.tree) :
    answer = .ok .success ∧ w'.has (pathIn directory) := by
  cases h with
  | declined _ => exact absurd rfl hne
  | made _ hadds _ _ => exact ⟨rfl, hadds.has⟩
  | failed _ => exact absurd rfl hne

/-! ## Many runs -/

/-- One run of many, with the machine before it and behind it. -/
structure Step where
  before : World
  answer : Except Trouble Status
  after : World

/-- The run changed a file. -/
def Step.Changes (step : Step) : Prop := step.after.tree ≠ step.before.tree

/-- The run declined and changed no file. -/
def Step.Declines (step : Step) : Prop :=
  step.answer = .ok .declined ∧ step.after.tree = step.before.tree

theorem Step.Declines.not_changes {step : Step} (h : step.Declines) : ¬ step.Changes :=
  not_not_intro h.2

/-- What can become of a machine: runs that are to make the settings file of one directory, and
between them anything after which the path of the file still names something if it did before. -/
inductive History (directory : Path) (start : World) : List Step → World → Prop where
  | start : History directory start [] start
  | run {steps : List Step} {w w' : World} {answer : Except Trouble Status} (colour : Bool)
      (h : History directory start steps w)
      (hrun : (create World.host colour directory).run w = (answer, w')) :
      History directory start (steps ++ [⟨w, answer, w'⟩]) w'
  | edit {steps : List Step} {w w' : World} (h : History directory start steps w)
      (hkept : w.has (pathIn directory) → w'.has (pathIn directory)) :
      History directory start steps w'

namespace History

variable {start : World} {steps : List Step}

/-- Once a run has changed a file, or if the path named something at the start, it does now. -/
theorem has_of_changes (h : History directory start steps w)
    (hthere : start.has (pathIn directory) ∨ ∃ step ∈ steps, step.Changes) :
    w.has (pathIn directory) := by
  induction h with
  | start =>
    rcases hthere with hstart | ⟨_, hmem, -⟩
    · exact hstart
    · cases hmem
  | run colour _ hrun ih =>
    have hends := ends_of_create hrun
    rcases hthere with hstart | ⟨step, hmem, hchanges⟩
    · exact hends.has_of_has (ih (.inl hstart))
    rcases List.mem_append.1 hmem with hmem | hmem
    · exact hends.has_of_has (ih (.inr ⟨step, hmem, hchanges⟩))
    · cases List.mem_singleton.1 hmem
      exact (hends.of_tree_ne hchanges).2
  | edit _ hkept ih => exact hkept (ih hthere)

/-- Behind a run that changed a file every run declines. -/
theorem pairwise (h : History directory start steps w) :
    steps.Pairwise fun earlier later => earlier.Changes → later.Declines := by
  induction h with
  | start => exact .nil
  | run colour h hrun ih =>
    refine List.pairwise_append.2 ⟨ih, List.pairwise_singleton _ _, ?_⟩
    intro earlier hearlier later hlater hchanges
    cases List.mem_singleton.1 hlater
    exact (ends_of_create hrun).of_has (h.has_of_changes (.inr ⟨earlier, hearlier, hchanges⟩))
  | edit _ _ ih => exact ih

theorem declines_of_has (h : History directory start steps w)
    (hstart : start.has (pathIn directory)) : ∀ step ∈ steps, step.Declines := by
  induction h with
  | start => simp
  | run colour h hrun ih =>
    intro step hstep
    rcases List.mem_append.1 hstep with hstep | hstep
    · exact ih step hstep
    · cases List.mem_singleton.1 hstep
      exact (ends_of_create hrun).of_has (h.has_of_changes (.inl hstart))
  | edit _ _ ih => exact ih

/-- No two runs change a file. -/
theorem pairwise_not_changes (h : History directory start steps w) :
    steps.Pairwise fun step other => ¬ (step.Changes ∧ other.Changes) :=
  h.pairwise.imp fun hdeclines hboth => (hdeclines hboth.1).not_changes hboth.2

end History

end Starter

/-! ## Other runs -/

/-- An audit says something and changes no file, whether it comes to its end or not. -/
theorem Audit.tree_run (colour : Bool) (options : Options) (w : World) :
    ((run World.host colour options).run w).2.tree = w.tree := by
  cases hs : settingsOn options w with
  | error trouble => rw [run_of_settings_error colour options w hs]
  | ok s =>
    cases hfurther : furtherOn options w with
    | error trouble => rw [run_of_further_error colour options w hs hfurther]
    | ok further =>
      rw [run_of_ok colour options w hs hfurther]
      rfl

/-- Neither does a run that is not asked to make the file. -/
theorem Program.tree_launch {env : Environment} {arguments : List Text}
    (h : ∀ line, CommandLine.read env.config arguments = .ok line → line.task = .audit)
    (w : World) : ((launch World.host env arguments).run w).2.tree = w.tree := by
  cases hread : CommandLine.read env.config arguments with
  | error complaint =>
    have hsay : ∀ stream t, (w.say stream t).tree = w.tree := by
      intro stream t
      cases stream <;> rfl
    rw [launch, hread]
    exact hsay _ _
  | ok line =>
    rw [launch_audit hread (h line hread), ← Audit.tree_run env.colour line.options w]
    cases (Audit.run World.host env.colour line.options).run w with
    | mk answer after =>
      cases answer with
      | error trouble => rfl
      | ok result => cases line.options.verbose <;> rfl

namespace Starter

/-- A run that is to make the settings file of a directory declines if the path names anything;
otherwise it makes the file where nothing was and changes no other place, or it fails with a message
that names the path. So of any number of runs in a directory, with anything between them that
leaves a settings file there once there is one, at most one changes a file, and every run behind it
declines, as all do if the path named something at the start. Runs that are asked for anything
else change no file. -/
theorem create_once (directory : Path) :
    (∀ colour w answer after, (create World.host colour directory).run w = (answer, after) →
      Ends directory colour w answer after) ∧
    (∀ fault, (Trouble.unwritable (pathIn directory) fault).describe.holds
      (pathIn directory).shown) ∧
    (∀ start steps w, History directory start steps w →
      (steps.Pairwise fun step other => ¬ (step.Changes ∧ other.Changes)) ∧
      (steps.Pairwise fun earlier later => earlier.Changes → later.Declines) ∧
      (start.has (pathIn directory) → ∀ step ∈ steps, step.Declines)) ∧
    ∀ (env : Program.Environment) (arguments : List Text),
      (∀ line, CommandLine.read env.config arguments = .ok line → line.task = .audit) →
      ∀ w, ((Program.launch World.host env arguments).run w).2.tree = w.tree := by
  refine ⟨fun _ _ _ _ => ends_of_create, ?_, ?_, fun _ _ => Program.tree_launch⟩
  · intro fault
    exact Text.holds_iff.2 ⟨"Failed to write ".toList, ": ".toList ++ fault.describe,
      (List.append_assoc _ _ _).symm⟩
  · intro start steps w h
    exact ⟨h.pairwise_not_changes, h.pairwise, h.declines_of_has⟩

/-- A settings file that is a link to nothing. -/
def danglingWorld : World :=
  .quiet ⟨[([.of "d"], .directory), ([.of "d", Settings.fileName], .link (.of "t"))]⟩ [.of "d"]

/-- The machine behind a run that makes what the link leads to. -/
def linkedWorld : World := ((create World.host false [Path.dot]).run danglingWorld).2

/-- The file is made where the link leads, and the link stays. After that every run declines, and
an audit changes nothing. -/
theorem create_once_danglingWorld :
    (create World.host false [Path.dot]).run danglingWorld = (.ok .success, linkedWorld) ∧
    linkedWorld.tree.at? [.of "d", .of "t"] = some (.file (encodeText Settings.standardText)) ∧
    linkedWorld.tree.at? [.of "d", Settings.fileName] = some (.link (.of "t")) ∧
    (∀ colour, ((create World.host colour [Path.dot]).run linkedWorld).1 = .ok .declined) ∧
    ((Program.launch World.host ⟨none, none, none⟩ []).run linkedWorld).2.tree =
      linkedWorld.tree := by
  obtain ⟨hends, -, hhistory, haudit⟩ := create_once [Path.dot]
  have hfirst : (create World.host false [Path.dot]).run danglingWorld =
      (.ok .success, linkedWorld) :=
    Prod.ext (by decide +kernel) rfl
  have hread : CommandLine.read none [] = .ok ⟨.audit, ⟨[], none, none, false⟩⟩ := by
    decide +kernel
  cases hends _ _ _ _ hfirst with
  | @made place _ _ hadds _ _ =>
    have hplace : linkedWorld.tree.locate .find linkedWorld.here (pathIn [Path.dot]) =
        .ok (.present [.of "d", .of "t"]) := by
      decide +kernel
    cases hadds.named.symm.trans hplace
    refine ⟨hfirst, hadds.made, hadds.others _ (by decide), ?_, haudit _ _ ?_ linkedWorld⟩
    · intro colour
      obtain ⟨-, hlater, -⟩ :=
        hhistory _ _ _ (.run colour (.run false .start hfirst) rfl)
      obtain ⟨hdeclines, -⟩ := List.pairwise_cons.1 hlater
      exact (hdeclines _ (List.mem_singleton_self _) hadds.tree_ne).1
    · intro line hline
      cases hread.symm.trans hline
      rfl

end Starter

end LiteralAudit
