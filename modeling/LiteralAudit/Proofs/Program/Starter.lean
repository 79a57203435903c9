import LiteralAudit.Proofs.Program.Sources
import LiteralAudit.Proofs.Starter

/-!
# Runs before and after a settings file is made

Where no settings file is found, a run that makes one changes nothing for the audits behind
it: they find the file, and it tells them what they did without it.
-/

namespace LiteralAudit.Program

open World (Says)

theorem launch_initialise {env : Environment} {arguments : List Text} {line : CommandLine}
    (hread : CommandLine.read env.config arguments = .ok line) (htask : line.task = .initialise)
    {w w' : World} {answer : Except Trouble Status}
    (h : (Starter.create World.host env.colour [Path.dot]).run w = (answer, w')) :
    (launch World.host env arguments).run w =
      match answer with
      | .ok status => (exitCode status, w')
      | .error trouble => (failureCode, w'.say .errors (failureMessage trouble)) := by
  have hrun : (run World.host env.colour line).run w = (answer, w') := by
    rw [run, htask]
    exact h
  rw [launch, hread]
  refine (World.run_bind hrun _).trans ?_
  cases answer <;> rfl

/-- Only a run that makes the file ends with success. -/
theorem starts_of_launch {env : Environment} {arguments : List Text} {line : CommandLine}
    (hread : CommandLine.read env.config arguments = .ok line) (htask : line.task = .initialise)
    {w w' : World}
    (h : (launch World.host env arguments).run w = (exitCode .success, w')) :
    ∃ place, Starter.Starts place w w' := by
  cases hcreate : (Starter.create World.host env.colour [Path.dot]).run w with
  | mk answer after =>
    rw [launch_initialise hread htask hcreate] at h
    cases answer with
    | error trouble => cases h
    | ok status =>
      cases status with
      | declined => cases h
      | success =>
        cases h
        exact Starter.starts_of_create hcreate

/-- A run whose further replacements cannot be read says so and nothing else. -/
theorem launch_says_unreadable {env : Environment} {arguments : List Text} {line : CommandLine}
    (hread : CommandLine.read env.config arguments = .ok line) (htask : line.task = .audit)
    {w : World} {s : Settings} (hs : Audit.settingsOn line.options w = .ok s) {p : Path}
    (hmappings : line.options.mappings = some p) {fault : AccessFault}
    (hfault : w.text p = .error fault) :
    Says (launch World.host env arguments) w failureCode []
      (failureMessage (.unreadable .mappings p fault)) := by
  have hfurther : Audit.furtherOn line.options w =
      .error (.unreadable .mappings p fault) := by
    rw [Audit.furtherOn_eq, hmappings]
    simp only [hfault]
  rw [Says, launch_audit hread htask, Audit.run_of_further_error _ _ _ hs hfurther,
    List.append_nil]
  rfl

/-- Making the settings file where none is found changes nothing for an audit that would look
for one: neither its result, nor what it says, nor its exit code. The file may not be one of
those that the audit reads otherwise. A path to further replacements that goes on behind the
file fails before and after, with another reason. Unless its absolute path is too long, the
file is where the settings are taken from, and they are the standard ones as before. -/
theorem launch_after_create {starting env : Environment} {starters arguments : List Text}
    {start line : CommandLine} {w w' : World}
    (hstart : CommandLine.read starting.config starters = .ok start)
    (hinitialise : start.task = .initialise)
    (hsuccess : (launch World.host starting starters).run w = (exitCode .success, w'))
    (hnone : (Settings.nearestFile? World.host (World.pathOf w.here)).run w = (none, w))
    (hread : CommandLine.read env.config arguments = .ok line) (htask : line.task = .audit)
    (hconfig : line.options.config = none)
    (hlisted : ∀ p ∈ Audit.paths line.options .standard, ¬ w'.NamesSame p Starter.path)
    (hmappings : ∀ p, line.options.mappings = some p → ¬ w'.NamesSame p Starter.path) :
    ((∃ result code output errors,
        Says (Audit.run World.host env.colour line.options) w result output [] ∧
        Says (Audit.run World.host env.colour line.options) w' result output [] ∧
        Says (launch World.host env arguments) w code output errors ∧
        Says (launch World.host env arguments) w' code output errors) ∨
      ∃ p, line.options.mappings = some p ∧
        w.text p = .error .missing ∧ w'.text p = .error .notDirectory ∧
        Says (launch World.host env arguments) w failureCode []
          (failureMessage (.unreadable .mappings p .missing)) ∧
        Says (launch World.host env arguments) w' failureCode []
          (failureMessage (.unreadable .mappings p .notDirectory))) ∧
    (Settings.discover World.host (World.pathOf w.here)).run w = (.ok ⟨.standard, false⟩, w) ∧
    (w.tree.IsReachable w.here →
      (Path.join (World.pathOf w.here) Settings.fileName).length ≤ FileTree.longestPath →
      (Settings.discover World.host (World.pathOf w'.here)).run w' =
        (.ok ⟨.standard, true⟩, w')) := by
  obtain ⟨place, hmade⟩ := starts_of_launch hstart hinitialise hsuccess
  have hfound : Settings.found? w (Settings.searched w) = none := by
    rw [Settings.nearestFile?, Settings.run_firstFile?] at hnone
    exact congrArg Prod.fst hnone
  obtain ⟨hs, hs'⟩ := hmade.settingsOn_eq hfound hconfig
  refine ⟨?_, ?_, ?_⟩
  · -- of the files that are read, only that with further replacements can be missed in two ways
    by_cases hsame : ∀ p, line.options.mappings = some p → w'.text p = w.text p
    · left
      refine launch_alike hread hread htask rfl ?_
      exact Audit.says_of_settings env.colour hs hs' (Audit.furtherOn_congr hsame) rfl
        (fun _ => rfl) rfl fun p hp => hmade.files_of_not_namesSame (hlisted p hp)
    · right
      push Not at hsame
      obtain ⟨p, hp, hne⟩ := hsame
      obtain ⟨hbefore, hafter⟩ :=
        (hmade.text_of_not_namesSame (hmappings p hp)).resolve_left hne
      exact ⟨p, hp, hbefore, hafter, launch_says_unreadable hread htask hs hp hbefore,
        launch_says_unreadable hread htask hs' hp hafter⟩
  · have hdiscovered : Settings.discovered w (Settings.searched w) = .ok ⟨.standard, false⟩ := by
      rw [Settings.discovered, hfound]
    rw [Settings.run_discover]
    exact congrArg (fun answer => (answer, w)) hdiscovered
  · intro hreachable hshort
    rw [Settings.run_discover]
    exact congrArg (fun answer => (answer, w'))
      (hmade.discovered_eq hfound hreachable hshort)

/-- A machine with further replacements and a source file, where no settings file is. -/
def startWorld : World :=
  .quiet ⟨[([.of "d"], .directory),
    ([.of "d", .of "m.json"], .file (encodeText "\x7b\"\\\"OK\\\"\": \"x\"\x7d".toList)),
    ([.of "d", .of "A"], .file (encodeText "\"OK\"".toList))]⟩ [.of "d"]

/-- The machine behind a run that makes the settings file. -/
def started (w : World) : World :=
  ((launch World.host ⟨none, none, none⟩ ["init".toList]).run w).2

theorem run_init {w : World}
    (h : ((launch World.host ⟨none, none, none⟩ ["init".toList]).run w).1 = exitCode .success) :
    (launch World.host ⟨none, none, none⟩ ["init".toList]).run w =
      (exitCode .success, started w) := Prod.ext h rfl

theorem read_init : CommandLine.read none ["init".toList] =
    .ok ⟨.initialise, ⟨[], none, none, false⟩⟩ := by
  decide +kernel

theorem launch_after_create_startWorld :
    (launch World.host ⟨none, none, none⟩ ["init".toList]).run startWorld =
      (exitCode .success, started startWorld) ∧
    (∃ code output errors,
      Says (launch World.host ⟨none, none, none⟩ ["--mappings".toList, "m.json".toList, "A".toList])
        startWorld code output errors ∧
      Says (launch World.host ⟨none, none, none⟩ ["--mappings".toList, "m.json".toList, "A".toList])
        (started startWorld) code output errors) ∧
    (Settings.discover World.host (.of "/d")).run (started startWorld) =
      (.ok ⟨.standard, true⟩, started startWorld) := by
  have hread : CommandLine.read none ["--mappings".toList, "m.json".toList, "A".toList] =
      .ok ⟨.audit, ⟨[.of "A"], none, some (.of "m.json"), false⟩⟩ := by
    decide +kernel
  have hsuccess : (launch World.host ⟨none, none, none⟩ ["init".toList]).run startWorld =
      (exitCode .success, started startWorld) := run_init (by decide +kernel)
  have hnone : (Settings.nearestFile? World.host (World.pathOf startWorld.here)).run startWorld =
      (none, startWorld) := by
    rw [Settings.nearestFile?, Settings.run_firstFile?]
    exact congrArg (fun found => (found, startWorld)) (by decide +kernel)
  have hlisted : ∀ p ∈ [Path.of "A"], ¬ (started startWorld).NamesSame p Starter.path := by
    decide +kernel
  have hmappings : ∀ p, some (Path.of "m.json") = some p →
      ¬ (started startWorld).NamesSame p Starter.path := by
    rintro _ ⟨⟩
    decide +kernel
  have hname : FileTree.IsName (.of "d") := by constructor <;> decide
  have hreachable : startWorld.tree.IsReachable startWorld.here :=
    FileTree.isReachable_root.below hname (by decide +kernel)
  obtain ⟨hsame, -, hfile⟩ := @launch_after_create ⟨none, none, none⟩ ⟨none, none, none⟩ _ _ _ _ _ _
    read_init rfl hsuccess hnone hread rfl rfl hlisted hmappings
  refine ⟨hsuccess, ?_, hfile hreachable (by decide +kernel)⟩
  rcases hsame with ⟨-, code, output, errors, -, -, hbefore, hafter⟩ | ⟨p, hp, hmissing, -⟩
  · exact ⟨code, output, errors, hbefore, hafter⟩
  · cases hp
    have hthere : (startWorld.text (.of "m.json")).toOption.isSome := by decide +kernel
    rw [hmissing] at hthere
    cases hthere

def longName : Path := .ofText (List.replicate 254 'a')

/-- A machine that runs in a directory so deep that the absolute path of a settings file there
is longer than a path may be. A search ends in this directory. -/
def deepWorld : World :=
  .quiet ⟨(List.replicate 16 longName ++ [Settings.boundaryName], .directory) ::
      (List.range 16).map fun n => (List.replicate n longName ++ [longName], .directory)⟩
    (List.replicate 16 longName)

theorem isReachable_deepWorld : deepWorld.tree.IsReachable deepWorld.here := by
  have hname : FileTree.IsName longName := by constructor <;> decide +kernel
  have hdirectory : ∀ n < 16,
      deepWorld.tree.isSearchable (List.replicate n longName ++ [longName]) := by
    decide +kernel
  have hall : ∀ n ≤ 16, deepWorld.tree.IsReachable (List.replicate n longName) := by
    intro n hle
    induction n with
    | zero => exact FileTree.isReachable_root
    | succ n ih =>
      rw [List.replicate_succ']
      exact (ih (by omega)).below hname (hdirectory n hle)
  exact hall 16 (Nat.le_refl _)

/-- Arguments for an audit with further replacements behind the settings file. -/
def argumentsBehindFile : List Text := ["--mappings".toList, pathBehindSettings, "A".toList]

/-- A path that goes on behind the settings file fails with another reason once the file is
there, though it does not name it. And from a directory that is too deep the file is not found
where it was made. -/
theorem launch_after_create_differs :
    ((launch World.host ⟨none, none, none⟩ ["init".toList]).run startWorld =
        (exitCode .success, started startWorld) ∧
      Settings.found? startWorld (Settings.searched startWorld) = none ∧
      (∀ p ∈ [.of "A", .ofText pathBehindSettings],
        ¬ (started startWorld).NamesSame p Starter.path) ∧
      Says (launch World.host ⟨none, none, none⟩ argumentsBehindFile) startWorld failureCode []
        (Text.line ("Error: Failed to read mapping file: ".toList ++ pathBehindSettings ++
          ": No such file or directory (os error 2)".toList)) ∧
      Says (launch World.host ⟨none, none, none⟩ argumentsBehindFile) (started startWorld)
        failureCode []
        (Text.line ("Error: Failed to read mapping file: ".toList ++ pathBehindSettings ++
          ": Not a directory (os error 20)".toList))) ∧
    (launch World.host ⟨none, none, none⟩ ["init".toList]).run deepWorld =
      (exitCode .success, started deepWorld) ∧
    Settings.found? deepWorld (Settings.searched deepWorld) = none ∧
    deepWorld.tree.IsReachable deepWorld.here ∧
    (Settings.discover World.host (World.pathOf (started deepWorld).here)).run
        (started deepWorld) =
      (.ok ⟨.standard, false⟩, started deepWorld) := by
  have hread : CommandLine.read none argumentsBehindFile =
      .ok ⟨.audit, ⟨[.of "A"], none, some (.ofText pathBehindSettings), false⟩⟩ := by
    decide +kernel
  have hsuccess : (launch World.host ⟨none, none, none⟩ ["init".toList]).run startWorld =
      (exitCode .success, started startWorld) := run_init (by decide +kernel)
  have hfound : Settings.found? startWorld (Settings.searched startWorld) = none := by
    decide +kernel
  have hbefore : startWorld.text (.ofText pathBehindSettings) = .error .missing := by decide +kernel
  have hafter : (started startWorld).text (.ofText pathBehindSettings) = .error .notDirectory := by
    decide +kernel
  have hdeep : Settings.found? (started deepWorld) (Settings.searched (started deepWorld)) =
      none := by
    decide +kernel
  -- the settings behind the run are known without reading the file that it made
  obtain ⟨place, hmade⟩ :=
    @starts_of_launch ⟨none, none, none⟩ _ _ read_init rfl _ _ hsuccess
  obtain ⟨hs, hs'⟩ := hmade.settingsOn_eq hfound
    (show Options.config ⟨[.of "A"], none, some (.ofText pathBehindSettings), false⟩ = none
      from rfl)
  have hmissing := @launch_says_unreadable ⟨none, none, none⟩ _ _ hread rfl _ _ hs _ rfl _ hbefore
  have hblocked := @launch_says_unreadable ⟨none, none, none⟩ _ _ hread rfl _ _ hs' _ rfl _ hafter
  refine ⟨⟨hsuccess, hfound, by decide +kernel, hmissing, hblocked⟩,
    run_init (by decide +kernel), by decide +kernel, isReachable_deepWorld, ?_⟩
  rw [Settings.run_discover]
  refine congrArg (fun answer => (answer, started deepWorld)) ?_
  show Settings.discovered _ (Settings.searched (started deepWorld)) = _
  rw [Settings.discovered, hdeep]

end LiteralAudit.Program
