import LiteralAudit.Proofs.Audit.Sources
import LiteralAudit.Proofs.CommandLine.Reader
import LiteralAudit.Proofs.Path.Letters
import LiteralAudit.Proofs.Program

/-!
# Where a run takes its inputs from

A command line for an audit names some of its inputs and leaves the others to the variable,
to a search or to the standard ones. Of several sources for one input the first that is there
is used, and a run does not depend on the others.
-/

namespace LiteralAudit.Program

open World (Says)

/-- What is said behind a report depends on the answer of the audit alone. -/
theorem ending_alike (colour verbose : Bool) (result : Except Trouble Audit.Result) :
    ∃ code errors, ∀ (w : World) (output : Text),
      ending colour verbose
          (result, { w with output := w.output ++ output, errors := w.errors ++ [] }) =
        (code, { w with output := w.output ++ output, errors := w.errors ++ errors }) := by
  cases result with
  | error trouble =>
    refine ⟨failureCode, failureMessage trouble, ?_⟩
    intro w output
    simp [ending, World.say]
  | ok result =>
    cases verbose with
    | false => exact ⟨exitCode .success, [], fun _ _ => rfl⟩
    | true =>
      refine ⟨exitCode .success, Wording.details colour result.survey result.table, ?_⟩
      intro w output
      simp [ending, World.say]

/-- Two runs with the same command line end alike if their audits do. -/
theorem launch_alike {env env' : Environment} {arguments arguments' : List Text}
    {line : CommandLine} (hread : CommandLine.read env.config arguments = .ok line)
    (hread' : CommandLine.read env'.config arguments' = .ok line) (htask : line.task = .audit)
    (hcolour : env'.colour = env.colour) {w w' : World}
    (h : ∃ result output,
      Says (Audit.run World.host env.colour line.options) w result output [] ∧
      Says (Audit.run World.host env.colour line.options) w' result output []) :
    ∃ result code output errors,
      Says (Audit.run World.host env.colour line.options) w result output [] ∧
      Says (Audit.run World.host env.colour line.options) w' result output [] ∧
      Says (launch World.host env arguments) w code output errors ∧
      Says (launch World.host env' arguments') w' code output errors := by
  obtain ⟨result, output, hw, hw'⟩ := h
  obtain ⟨code, errors, hending⟩ := ending_alike env.colour line.options.verbose result
  refine ⟨result, code, output, errors, hw, hw', ?_, ?_⟩
  · rw [Says, launch_audit hread htask, hw]
    exact hending w output
  · rw [Says, launch_audit hread' htask, hcolour, hw']
    exact hending w' output

/-- A run takes each of its inputs from the first source that is there, and nothing else makes
a difference to it. The settings file is that of the option, or else that of the variable, or
else the one that is found from the directory where the program runs, which must still be there
then; without any, the settings are the standard ones. Of several keys without quotes that which
is gone through first is named. Paths on the command line take the place of those in the
settings. Further replacements come before those of the settings, and these before the
standard ones; the table has each key of the three once, so it is never empty. -/
theorem launch_sources {env : Environment} {arguments : List Text} {line : CommandLine}
    (hread : CommandLine.read env.config arguments = .ok line) (htask : line.task = .audit) :
    (∃ given : Option Text, line.options.config = (given.or env.config).map Path.ofText ∧
      ∀ other, (given.isSome ∨ other ≠ some []) →
        CommandLine.read other arguments =
          .ok ⟨.audit, { line.options with config := (given.or other).map Path.ofText }⟩) ∧
    (∀ w, Audit.settingsOn line.options w =
      match line.options.config with
      | some p => Settings.loadOn w p
      | none =>
        match w.directory with
        | .error fault => .error (.noDirectory fault)
        | .ok directory =>
          match Settings.found? w (Path.ancestors directory) with
          | some p => Settings.loadOn w p
          | none => .ok .standard) ∧
    (∀ (env' : Environment) (w w' : World), env'.colour = env.colour →
      CommandLine.read env'.config arguments = .ok line →
      Audit.SameSources line.options w w' →
      ∃ result code output errors,
        Says (Audit.run World.host env.colour line.options) w result output [] ∧
        Says (Audit.run World.host env.colour line.options) w' result output [] ∧
        Says (launch World.host env arguments) w code output errors ∧
        Says (launch World.host env' arguments) w' code output errors) ∧
    (line.options.paths ≠ [] → ∀ (w w' : World) (s : Settings) (listed : List Text),
      Audit.settingsOn line.options w = .ok s →
      Audit.settingsOn line.options w' = .ok { s with files := listed } →
      (∀ p, line.options.mappings = some p → w'.text p = w.text p) →
      (∀ p ∈ line.options.paths, w'.files p = w.files p) →
      ∃ result code output errors,
        Says (Audit.run World.host env.colour line.options) w result output [] ∧
        Says (Audit.run World.host env.colour line.options) w' result output [] ∧
        Says (launch World.host env arguments) w code output errors ∧
        Says (launch World.host env arguments) w' code output errors) ∧
    (∀ (w w' : World) (result : Audit.Result),
      (Audit.run World.host env.colour line.options).run w = (.ok result, w') →
      ∃ (s : Settings) (extra : Replacements),
        Audit.settingsOn line.options w = .ok s ∧
        (line.options.mappings = none → extra = .empty) ∧
        (∀ p, line.options.mappings = some p →
          ∃ t, w.text p = .ok t ∧ Replacements.ofText t = .ok extra) ∧
        w.files.survey (Audit.context s extra.entries)
            (if line.options.paths = [] then s.files.map Path.ofText else line.options.paths) =
          .ok result.survey ∧
        (∀ key, result.table.find? key =
          (extra.find? key).or
            ((s.mappings.find? key).or (Replacements.standard.find? key))) ∧
        result.table.size =
          (extra.keys ++ s.mappings.keys ++ Replacements.standard.keys).dedup.length ∧
        0 < result.table.size ∧
        Wording.details env.colour result.survey result.table =
          Wording.skippedWarnings env.colour result.survey.skipped ++
            (Wording.figures env.colour result.survey ++
              Text.line (styled env.colour [.bold] "summary:".toList ++ [' '] ++
                Text.ofNat result.table.size ++ " mappings loaded".toList))) := by
  refine ⟨CommandLine.read_of_audit hread htask, Audit.settingsOn_eq line.options, ?_, ?_, ?_⟩
  · intro env' w w' hcolour hread' hsame
    exact launch_alike hread hread' htask hcolour (hsame.alike env.colour)
  · intro hpaths w w' s listed hs hs' hmappings hfiles
    -- with paths on the command line the list in the settings is not looked at
    have hgiven : ∀ s, Audit.paths line.options s = line.options.paths := by
      intro s
      rw [Audit.paths, List.isEmpty_eq_false_iff.2 hpaths]
      rfl
    have hlisted : Audit.paths line.options { s with files := listed } =
        Audit.paths line.options s := by
      rw [hgiven, hgiven]
    refine launch_alike hread hread htask rfl ?_
    refine Audit.says_of_settings env.colour hs hs' (Audit.furtherOn_congr hmappings) rfl
      (fun _ => rfl) hlisted ?_
    rw [hgiven]
    exact hfiles
  · intro w w' result hrun
    obtain ⟨s, further, hs, hfurther, hsurvey, htable⟩ := Audit.exists_of_run_ok hrun
    obtain ⟨extra, rfl, hnone, hsome⟩ := Audit.exists_table_of_furtherOn hfurther
    have hpaths : Audit.paths line.options s =
        if line.options.paths = [] then s.files.map Path.ofText else line.options.paths := by
      rw [Audit.paths]
      cases line.options.paths <;> rfl
    have hpos : 0 < result.table.size := by
      rw [htable]
      exact Audit.size_context_pos s extra
    rw [hpaths] at hsurvey
    refine ⟨s, extra, hs, hnone, hsome, hsurvey, ?_, ?_, hpos,
      Wording.details_of_size_pos env.colour result.survey hpos⟩
    · intro key
      rw [htable]
      exact Audit.find?_context s extra key
    · rw [htable]
      exact Audit.size_context s extra

/-- A machine with a settings file, further replacements and a source file. -/
def plainWorld : World :=
  .quiet ⟨[([.of "c.json"], .file (encodeText "\x7b\x7d".toList)),
    ([.of "m.json"], .file (encodeText "\x7b\"\\\"OK\\\"\": \"x\"\x7d".toList)),
    ([.of "A"], .file (encodeText "\"OK\"".toList))]⟩ []

/-- The same machine with sources that are not used: a garbled settings file where a search
would find it, a malformed one for the variable, and a boundary. -/
def shadowedWorld : World :=
  .quiet ⟨plainWorld.tree.rows ++ [([Settings.fileName], .file ⟨#[0xff]⟩),
    ([.of "e.json"], .file (encodeText ['['])), ([Settings.boundaryName], .directory)]⟩ []

/-- The same machine with another list of files in its settings. -/
def relistedWorld : World :=
  .quiet ⟨([.of "c.json"], .file (encodeText "\x7b\"files\": [\"B\"]\x7d".toList)) ::
    plainWorld.tree.rows⟩ []

/-- Arguments that name all that there is to name. -/
def namingArguments : List Text :=
  ["-c".toList, "c.json".toList, "--mappings".toList, "m.json".toList, "A".toList]

def namingOptions : Options :=
  ⟨[.of "A"], some (.of "c.json"), some (.of "m.json"), false⟩

theorem launch_sources_plainWorld :
    (∃ code output errors,
      Says (launch World.host ⟨none, none, none⟩ namingArguments) plainWorld code output errors ∧
      Says (launch World.host ⟨some "e.json".toList, none, none⟩ namingArguments) shadowedWorld
        code output errors) ∧
    (∃ code output errors,
      Says (launch World.host ⟨none, none, none⟩ namingArguments) plainWorld code output errors ∧
      Says (launch World.host ⟨none, none, none⟩ namingArguments) relistedWorld
        code output errors) ∧
    ∃ result after,
      (Audit.run World.host false namingOptions).run plainWorld = (.ok result, after) ∧
      result.table.find? "\"OK\"".toList = some ['x'] ∧ 0 < result.table.size := by
  have hread : CommandLine.read none namingArguments = .ok ⟨.audit, namingOptions⟩ := by
    decide +kernel
  obtain ⟨⟨given, hgiven, hother⟩, -, hsame, hlisted, htable⟩ :=
    @launch_sources ⟨none, none, none⟩ _ _ hread rfl
  refine ⟨?_, ?_, ?_⟩
  · have hconfig : given = some "c.json".toList := by
      rw [Option.or_none] at hgiven
      exact Option.map_injective Path.ofText_injective hgiven.symm
    have hread' : CommandLine.read (some "e.json".toList) namingArguments =
        .ok ⟨.audit, namingOptions⟩ := by
      rw [hother _ (.inl (by rw [hconfig]; rfl)), hconfig]
      rfl
    have hsources : Audit.SameSources namingOptions plainWorld shadowedWorld := by
      constructor
      · intro hnone
        cases hnone
      · intro hnone
        cases hnone
      · rintro _ ⟨⟩
        decide +kernel
      · exact .inl rfl
      · rintro _ ⟨⟩
        decide +kernel
      · intro s _
        show ∀ p ∈ [Path.of "A"], _
        decide +kernel
    obtain ⟨-, code, output, errors, -, -, hplain, hshadowed⟩ :=
      hsame ⟨some "e.json".toList, none, none⟩ plainWorld shadowedWorld rfl hread' hsources
    exact ⟨code, output, errors, hplain, hshadowed⟩
  · have hplain : Audit.settingsOn namingOptions plainWorld = .ok .standard := by
      rw [Audit.settingsOn_eq]
      decide +kernel
    have hrelisted : Audit.settingsOn namingOptions relistedWorld =
        .ok { Settings.standard with files := [['B']] } := by
      rw [Audit.settingsOn_eq]
      decide +kernel
    have hmappings : ∀ p, namingOptions.mappings = some p →
        relistedWorld.text p = plainWorld.text p := by
      rintro _ ⟨⟩
      decide +kernel
    obtain ⟨-, code, output, errors, -, -, hplain, hrelisted⟩ :=
      hlisted (List.cons_ne_nil _ _) plainWorld relistedWorld .standard [['B']] hplain hrelisted
        hmappings (by decide +kernel)
    exact ⟨code, output, errors, hplain, hrelisted⟩
  · have hrun : ∃ result after,
        (Audit.run World.host false namingOptions).run plainWorld = (.ok result, after) := by
      have hs : Audit.settingsOn namingOptions plainWorld = .ok .standard := by
        rw [Audit.settingsOn_eq]
        decide +kernel
      have hfurther : Audit.furtherOn namingOptions plainWorld =
          .ok [("\"OK\"".toList, ['x'])] := by
        rw [Audit.furtherOn_eq]
        decide +kernel
      have hsound : ∀ p ∈ [Path.of "A"], plainWorld.files.IsSound p := by
        intro p hp
        rw [← Files.fault?_eq_none_iff]
        revert p
        decide +kernel
      have hpaths : Audit.paths namingOptions .standard = [.of "A"] := rfl
      rw [Audit.run_of_ok false _ _ hs hfurther, hpaths, (Files.survey_of_sound _ hsound).1]
      exact ⟨_, _, rfl⟩
    obtain ⟨result, after, hrun⟩ := hrun
    obtain ⟨s, extra, -, -, hextra, -, hfind, -, hpos, -⟩ := htable plainWorld after result hrun
    obtain ⟨t, htext, hread⟩ := hextra _ rfl
    have hentry : (plainWorld.text (.of "m.json")).toOption.map
        (fun t => (Replacements.ofText t).toOption.map (·.find? "\"OK\"".toList)) =
        some (some (some ['x'])) := by
      decide +kernel
    rw [htext] at hentry
    simp only [Except.toOption, Option.map_some, hread, Option.some.injEq] at hentry
    refine ⟨result, after, hrun, ?_, hpos⟩
    rw [hfind, hentry]
    rfl

/-- A path that goes on behind the name of the settings file. -/
def pathBehindSettings : Text := Settings.fileTitle ++ "/x".toList

def argumentsBehindSettings : List Text :=
  ["-c".toList, "c.json".toList, "--mappings".toList, pathBehindSettings, "A".toList]

/-- The opposite order. -/
def descending : KeyOrder := ⟨List.reverse, List.reverse_perm⟩

/-- A machine with two keys without quotes in the settings file that a search finds. -/
def rivalKeysWorld (order : KeyOrder) : World :=
  .quiet ⟨[([Settings.fileName], .file (encodeText
    "\x7b\"mappings\": \x7b\"One\": \"x\", \"Two\": \"y\"\x7d\x7d".toList))]⟩ [] order

/-- A path that goes on behind the name of a file tells whether the file is there, also if it
is the settings file and another one is used. No path of the run names the settings file. And
a variable that is set but empty names no file: nothing is run then. Nor is anything searched for
from a directory that is gone. And of two keys without quotes that which comes first is named. -/
theorem launch_sources_differs :
    (∀ p ∈ [.of "A", .ofText pathBehindSettings],
      shadowedWorld.tree.locate .find shadowedWorld.here p ≠
        .ok (.present [Settings.fileName])) ∧
    ((launch World.host ⟨none, none, none⟩ argumentsBehindSettings).run plainWorld).2.errors =
      Text.line ("Error: Failed to read mapping file: ".toList ++ pathBehindSettings ++
        ": No such file or directory (os error 2)".toList) ∧
    ((launch World.host ⟨none, none, none⟩ argumentsBehindSettings).run
        shadowedWorld).2.errors =
      Text.line ("Error: Failed to read mapping file: ".toList ++ pathBehindSettings ++
        ": Not a directory (os error 20)".toList) ∧
    (∃ errors, Says (launch World.host ⟨some [], none, none⟩ ["A".toList]) plainWorld 2 []
      errors) ∧
    Says (launch World.host ⟨none, none, none⟩ ["/One".toList]) Audit.lostWorld 2 []
      (Text.line ("Error: Failed to get current directory: " ++
        "No such file or directory (os error 2)").toList) ∧
    ∀ row ∈ [(KeyOrder.ascending, "One".toList), (descending, "Two".toList)],
      ((launch World.host ⟨none, none, none⟩ []).run (rivalKeysWorld row.1)).2.errors =
        Text.line ("Error: Mapping key must include its double quotes, got: ".toList ++ row.2) :=
  ⟨by decide +kernel, by decide +kernel, by decide +kernel,
    ⟨((launch World.host ⟨some [], none, none⟩ ["A".toList]).run plainWorld).2.errors, rfl⟩,
    by rfl, by decide +kernel⟩

end LiteralAudit.Program
