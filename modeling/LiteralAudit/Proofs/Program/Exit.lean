import LiteralAudit.Proofs.Audit.Outcome
import LiteralAudit.Proofs.CommandLine.Details
import LiteralAudit.Proofs.Program.Starter

/-!
# Exit codes

The exit code tells how a run ended: whether it did what it was asked to do, declined to, or
failed. A run that fails says why on the stream of errors, and this is all that it says there.
Details are told behind the report of an audit that comes to its end, and they are all the
difference that asking for them makes.
-/

namespace LiteralAudit.Program

open World (Says)

variable {env : Environment} {arguments : List Text} {line : CommandLine} {w : World}
  {trouble : Trouble}

/-- What a run fails at: what its audit fails at, or the settings file that cannot be written. -/
inductive Fails (line : CommandLine) (w : World) : Trouble → Prop
  | audit {trouble : Trouble} (htask : line.task = .audit)
      (h : Audit.Fails line.options w trouble) : Fails line w trouble
  | unwritable {fault : AccessFault} (htask : line.task = .initialise)
      (hvacant : ¬ w.has Starter.path)
      (hwrite : w.tree.write w.here Starter.path (encodeText Settings.standardText) =
        .error fault) : Fails line w (.unwritable Starter.path fault)

/-! ## The endings of a run -/

theorem says_failed (hread : CommandLine.read env.config arguments = .ok line)
    (htask : line.task = .audit) {output : Text}
    (h : Says (Audit.run World.host env.colour line.options) w (.error trouble) output []) :
    Says (launch World.host env arguments) w failureCode output (failureMessage trouble) := by
  rw [Says, launch_audit hread htask, h]
  simp [ending, World.say]

theorem Fails.exists_ending (hread : CommandLine.read env.config arguments = .ok line)
    (h : Fails line w trouble) :
    ∃ output, Says (launch World.host env arguments) w failureCode output
      (failureMessage trouble) := by
  cases h with
  | audit htask h =>
    obtain ⟨output, hrun⟩ := h.exists_ending env.colour
    exact ⟨output, says_failed hread htask hrun⟩
  | @unwritable fault htask hvacant hwrite =>
    have hcreate : (Starter.create World.host env.colour [Path.dot]).run w =
        (.error (.unwritable Starter.path fault), w) := by
      rw [Starter.run_create_path, if_neg hvacant, hwrite]
    refine ⟨[], ?_⟩
    rw [Says, launch_initialise hread htask hcreate, List.append_nil]
    rfl

theorem says_declined (hread : CommandLine.read env.config arguments = .ok line)
    (htask : line.task = .initialise) (h : w.has Starter.path) :
    Says (launch World.host env arguments) w (exitCode .declined) [] Starter.alreadyThere := by
  have hcreate : (Starter.create World.host env.colour [Path.dot]).run w =
      (.ok .declined, w.say .errors Starter.alreadyThere) := by
    rw [Starter.run_create_path, if_pos h]
  rw [Says, launch_initialise hread htask hcreate, List.append_nil]
  rfl

theorem exists_created (hread : CommandLine.read env.config arguments = .ok line)
    (htask : line.task = .initialise) (hvacant : ¬ w.has Starter.path) {tree : FileTree}
    (hwrite : w.tree.write w.here Starter.path (encodeText Settings.standardText) = .ok tree) :
    ∃ after, (launch World.host env arguments).run w = (exitCode .success, after) ∧
      ∃ place, Starter.Starts place w after := by
  have hcreate : (Starter.create World.host env.colour [Path.dot]).run w =
      (.ok .success, ({ w with tree } : World).say .output
        (Starter.created env.colour)) := by
    rw [Starter.run_create_path, if_neg hvacant, hwrite]
  exact ⟨_, launch_initialise hread htask hcreate, Starter.starts_of_create hcreate⟩

/-- Details are all that an audit that comes to its end says on the stream of errors. -/
theorem says_completed (hread : CommandLine.read env.config arguments = .ok line)
    (htask : line.task = .audit) {s : Settings} {further : List (Text × Text)}
    (hs : Audit.settingsOn line.options w = .ok s)
    (hfurther : Audit.furtherOn line.options w = .ok further)
    (hsound : ∀ p ∈ Audit.paths line.options s, w.files.IsSound p) :
    Says (launch World.host env arguments) w (exitCode .success)
      (w.files.report env.colour s.labels (Audit.context s further) (Audit.paths line.options s))
      (if line.options.verbose then
        Wording.details env.colour (Audit.surveyOn line.options w s further)
          (Audit.context s further).table
      else []) := by
  rw [Says, launch_audit hread htask, Audit.says_of_sound env.colour hs hfurther hsound]
  cases line.options.verbose <;> simp [ending, World.say]

/-- A run has done what it was asked to do: the settings file is there, or the audit has come to
its end. -/
def Succeeds (line : CommandLine) (w after : World) : Prop :=
  match line.task with
  | .initialise => ∃ place, Starter.Starts place w after
  | .audit => Audit.Completes line.options w

/-- A run fails, declines or succeeds. -/
theorem fails_or_ends (hread : CommandLine.read env.config arguments = .ok line) (w : World) :
    (∃ trouble, Fails line w trouble) ∨
    (line.task = .initialise ∧ w.has Starter.path) ∨
    ∃ after, (launch World.host env arguments).run w = (exitCode .success, after) ∧
      Succeeds line w after := by
  unfold Succeeds
  cases htask : line.task with
  | audit =>
    rcases Audit.fails_or_completes line.options w with ⟨trouble, h⟩ | h
    · exact .inl ⟨trouble, .audit htask h⟩
    · obtain ⟨s, further, hs, hfurther, hsound⟩ := h
      exact .inr (.inr ⟨_, says_completed hread htask hs hfurther hsound,
        s, further, hs, hfurther, hsound⟩)
  | initialise =>
    by_cases hpresent : w.has Starter.path
    · exact .inr (.inl ⟨rfl, hpresent⟩)
    · cases hwrite : w.tree.write w.here Starter.path (encodeText Settings.standardText) with
      | error fault => exact .inl ⟨_, .unwritable htask hpresent hwrite⟩
      | ok tree => exact .inr (.inr (exists_created hread htask hpresent hwrite))

/-! ## Exit codes -/

section Codes

variable {code : Nat} {after : World}

/-- What is said in a run leaves the files as they were, so the settings file is not made. -/
theorem of_says_launch {answer : Nat} {output errors : Text}
    (hrun : (launch World.host env arguments).run w = (code, after))
    (h : Says (launch World.host env arguments) w answer output errors) :
    code = answer ∧ after.tree = w.tree ∧ after.errors = w.errors ++ errors ∧
      ∀ place, ¬ Starter.Starts place w after := by
  rw [Says, hrun] at h
  cases h
  refine ⟨rfl, rfl, rfl, ?_⟩
  intro place hstarts
  have hplace := hstarts.locate_path
  rw [hstarts.located] at hplace
  cases hplace

theorem Fails.code_eq (h : Fails line w trouble)
    (hread : CommandLine.read env.config arguments = .ok line)
    (hrun : (launch World.host env arguments).run w = (code, after)) :
    code = failureCode ∧ after.tree = w.tree ∧
      after.errors = w.errors ++ failureMessage trouble ∧ ¬ Succeeds line w after := by
  obtain ⟨output, hsays⟩ := h.exists_ending hread
  obtain ⟨hcode, htree, herrors, hnot⟩ := of_says_launch hrun hsays
  refine ⟨hcode, htree, herrors, ?_⟩
  cases h with
  | audit htask h =>
    rw [Succeeds, htask]
    exact h.not_completes
  | unwritable htask _ _ =>
    rw [Succeeds, htask]
    rintro ⟨place, hstarts⟩
    exact hnot place hstarts

theorem code_eq_of_has (htask : line.task = .initialise) (h : w.has Starter.path)
    (hread : CommandLine.read env.config arguments = .ok line)
    (hrun : (launch World.host env arguments).run w = (code, after)) :
    code = exitCode .declined ∧ ¬ Succeeds line w after := by
  obtain ⟨hcode, -, -, hnot⟩ := of_says_launch hrun (says_declined hread htask h)
  refine ⟨hcode, ?_⟩
  rw [Succeeds, htask]
  rintro ⟨place, hstarts⟩
  exact hnot place hstarts

/-- Each exit code is for one of the endings. -/
theorem code_iff (hread : CommandLine.read env.config arguments = .ok line)
    (hrun : (launch World.host env arguments).run w = (code, after)) :
    (code = 0 ↔ Succeeds line w after) ∧
    (code = 1 ↔ line.task = .initialise ∧ w.has Starter.path) ∧
    (code = 2 ↔ ∃ trouble, Fails line w trouble) ∧ code ≤ 2 := by
  have hdeclines : line.task = .initialise ∧ w.has Starter.path → code = 1 :=
    fun h => (code_eq_of_has h.1 h.2 hread hrun).1
  have hfails : (∃ trouble, Fails line w trouble) → code = 2 :=
    fun ⟨_, h⟩ => (h.code_eq hread hrun).1
  rcases fails_or_ends hread w with ⟨trouble, h⟩ | ⟨htask, h⟩ | ⟨after', hsuccess, h⟩
  · obtain ⟨rfl, -, -, hnot⟩ := h.code_eq hread hrun
    have hfailed : ∃ trouble, Fails line w trouble := ⟨trouble, h⟩
    refine ⟨iff_of_false (by decide) hnot, iff_of_false (by decide) ?_,
      iff_of_true rfl hfailed, Nat.le_refl 2⟩
    intro hdeclined
    cases hdeclines hdeclined
  · obtain ⟨rfl, hnot⟩ := code_eq_of_has htask h hread hrun
    refine ⟨iff_of_false (by decide) hnot, iff_of_true rfl ⟨htask, h⟩,
      iff_of_false (by decide) ?_, by decide⟩
    intro hfailed
    cases hfails hfailed
  · rw [hrun] at hsuccess
    cases hsuccess
    refine ⟨iff_of_true rfl h, iff_of_false (by decide) ?_, iff_of_false (by decide) ?_,
      Nat.zero_le 2⟩
    · intro hdeclined
      cases hdeclines hdeclined
    · intro hfailed
      cases hfails hfailed

end Codes

/-! ## Details -/

end LiteralAudit.Program
