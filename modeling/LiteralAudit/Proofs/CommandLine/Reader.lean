import LiteralAudit.CommandLine.Reader
import LiteralAudit.Proofs.Steps

/-!
# The variable that names a settings file

The variable has two uses: it is shown in the help, and it stands in for an option that is
not given. So arguments that ask for an audit are read in the same way whatever it holds, and
with the option it does not matter at all.
-/

namespace LiteralAudit.CommandLine

/-! ## Reading on -/

namespace State

variable {config : Option Text} {st st' : State}

/-- A flag that does not end the reading shows no page. -/
theorem flag_of_ok {slot : Slot} {page : Page} (h : st.flag slot page = .ok st') (other : Page) :
    st.flag slot other = .ok st' := by
  cases slot with
  | help =>
    obtain ⟨_, -, hhelp⟩ := exists_of_bind_eq_ok h
    cases hhelp
  | _ => exact h

/-- An argument that is not known ends the reading. -/
theorem long_of_unknown {name : Text} (h : Slot.ofLongName? name = none) (config : Option Text)
    (value : Option Text) : ∃ complaint, st.long config name value = .error complaint := by
  unfold long
  rw [h]
  cases Similarity.best? Slot.longName Slot.named name with
  | none =>
    simp only
    exact ⟨_, rfl⟩
  | some slot =>
    simp only
    exact ⟨_, rfl⟩

theorem long_of_ok {name : Text} {value : Option Text} (h : st.long config name value = .ok st')
    (other : Option Text) : st.long other name value = .ok st' := by
  cases hslot : Slot.ofLongName? name with
  | none =>
    obtain ⟨complaint, herror⟩ := long_of_unknown hslot config value
    rw [herror] at h
    cases h
  | some slot =>
    unfold long at h ⊢
    rw [hslot] at h ⊢
    simp only at h ⊢
    cases htakes : slot.takesValue <;> cases value <;> simp only [htakes] at h ⊢
    · exact flag_of_ok h _
    · cases h
    · exact h
    · exact h

theorem short_of_ok {letters : Text} (h : st.short config letters = .ok st')
    (other : Option Text) : st.short other letters = .ok st' := by
  induction letters generalizing st with
  | nil => exact h
  | cons letter rest ih =>
    rw [short] at h ⊢
    cases hslot : Slot.ofShortName? letter with
    | none =>
      rw [hslot] at h
      cases h
    | some slot =>
      simp only [hslot] at h ⊢
      by_cases htakes : slot.takesValue
      · rw [if_pos htakes] at h ⊢
        exact h
      · rw [if_neg htakes] at h ⊢
        obtain ⟨next, hflag, hrest⟩ := exists_of_bind_eq_ok h
        rw [flag_of_ok hflag (.short other)]
        exact ih hrest

theorem readAll_of_ok {arguments : List Text} (h : st.readAll config arguments = .ok st')
    (other : Option Text) : st.readAll other arguments = .ok st' := by
  induction arguments generalizing st with
  | nil => exact h
  | cons argument rest ih =>
    -- a step that is taken with one value of the variable is taken with every other
    have hstep : ∀ {first second : Except Complaint State},
        (∀ next, first = .ok next → second = .ok next) →
        (first >>= fun next => readAll config next rest) = .ok st' →
        (second >>= fun next => readAll other next rest) = .ok st' := by
      intro first second hsecond hboth
      obtain ⟨next, hfirst, hrest⟩ := exists_of_bind_eq_ok hboth
      rw [hsecond next hfirst]
      exact ih hrest
    rw [readAll.eq_def] at h ⊢
    simp only at h ⊢
    split at h
    · exact h
    · exact hstep (fun _ hlong => long_of_ok hlong other) h
    · exact hstep (fun _ hshort => short_of_ok hshort other) h
    · exact hstep (fun _ hplain => hplain) h

end State

/-! ## Command lines -/

/-- The settings file of a command line that was read. -/
theorem configOr_eq_ok {config given result : Option Text}
    (h : configOr config given = .ok result) : result = given.or config := by
  unfold configOr at h
  split at h
  · cases h
    rfl
  · cases h
  · cases h
    rfl

theorem configOr_eq {config given : Option Text} (h : given.isSome ∨ config ≠ some []) :
    configOr config given = .ok (given.or config) := by
  unfold configOr
  split
  · rfl
  · rcases h with h | h
    · cases h
    · exact absurd rfl h
  · rfl

/-- Arguments that ask for an audit begin with no command, and all of them are read. -/
theorem exists_of_read_audit {config : Option Text} {arguments : List Text} {line : CommandLine}
    (h : read config arguments = .ok line) (htask : line.task = .audit) :
    arguments.head? ≠ some "init".toList ∧ arguments.head? ≠ some "help".toList ∧
      ∃ st result, State.initial.readAll config arguments = .ok st ∧
        configOr config (st.values .config).head? = .ok result ∧
        line = ⟨.audit, Request.options ⟨st.values .paths, result, (st.values .mappings).head?,
          st.has .verbose⟩⟩ := by
  unfold read at h
  by_cases hinit : arguments.head? = some "init".toList
  · rw [if_pos hinit] at h
    obtain ⟨_, -, h⟩ := exists_of_bind_eq_ok h
    obtain ⟨_, -, h⟩ := exists_of_bind_eq_ok h
    cases h
    cases htask
  rw [if_neg hinit] at h
  by_cases hhelp : arguments.head? = some "help".toList
  · rw [if_pos hhelp] at h
    cases h
  rw [if_neg hhelp] at h
  obtain ⟨st, hall, h⟩ := exists_of_bind_eq_ok h
  obtain ⟨result, hconfig, h⟩ := exists_of_bind_eq_ok h
  cases h
  exact ⟨hinit, hhelp, st, result, hall, hconfig, rfl⟩

/-- The arguments of an audit say the same whatever the variable holds, but for the settings
file: the one of the variable counts if the arguments give none. Only an empty one is no
settings file. -/
theorem read_of_audit {config : Option Text} {arguments : List Text} {line : CommandLine}
    (h : read config arguments = .ok line) (htask : line.task = .audit) :
    ∃ given : Option Text, line.options.config = (given.or config).map Path.ofText ∧
      ∀ other, (given.isSome ∨ other ≠ some []) →
        read other arguments =
          .ok ⟨.audit, { line.options with config := (given.or other).map Path.ofText }⟩ := by
  obtain ⟨hinit, hhelp, st, result, hall, hconfig, rfl⟩ := exists_of_read_audit h htask
  refine ⟨(st.values .config).head?, by rw [← configOr_eq_ok hconfig]; rfl, ?_⟩
  intro other hother
  rw [read, if_neg hinit, if_neg hhelp, State.readAll_of_ok hall other]
  simp only [bind, Except.bind, configOr_eq hother]
  rfl

end LiteralAudit.CommandLine
