import LiteralAudit.Proofs.CommandLine.Details

/-!
# Command lines written out

The options of an audit can be written as one argument each, in any order, with the paths behind a
separator. Then nothing is taken for anything else: a value is all that stands behind the first
equals sign, whatever it looks like, and behind the separator everything is a path. So the options
are read as they were written, and the variable that names a settings file counts only if they name
none. Only an empty path is refused.
-/

namespace LiteralAudit

namespace CommandLine

/-- An option of an audit that is written as one argument. -/
inductive Switch where
  | config (path : Text)
  | mappings (path : Text)
  | verbose
deriving DecidableEq, Repr

namespace Switch

def slot : Switch → Slot
  | config _ => .config
  | mappings _ => .mappings
  | verbose => .verbose

/-- What stands behind the equals sign. -/
def values : Switch → List Text
  | config path => [path]
  | mappings path => [path]
  | verbose => []

/-- The option as it is written. -/
def argument : Switch → Text
  | config path => "--config=".toList ++ path
  | mappings path => "--mappings=".toList ++ path
  | verbose => "-v".toList

theorem slot_ne_paths (s : Switch) : s.slot ≠ .paths := by
  cases s <;> simp [slot]

end Switch

/-- Options with paths behind a separator. -/
def written (switches : List Switch) (paths : List Text) : List Text :=
  switches.map Switch.argument ++ "--".toList :: paths

/-- The options that are to be written for a request. -/
def Request.switches (request : Request) : List Switch :=
  request.config.toList.map .config ++ request.mappings.toList.map .mappings ++
    if request.verbose then [.verbose] else []

namespace State

variable {config : Option Text} {st : State} {given switches : List Switch} {s : Switch}
  {slot other : Slot} {values paths : List Text}

/-! ## Putting one more argument away -/

/-- The state with one more argument put away. -/
def put (st : State) (slot : Slot) (values : List Text) : State :=
  { st with stored := st.stored ++ [(slot, values)] }

theorem has_put : (st.put slot values).has other ↔ st.has other ∨ slot = other := by
  simp [has, put]

theorem lookup_eq_none_of_has (h : st.has slot = false) : st.stored.lookup slot = none := by
  rw [List.lookup_eq_none_iff]
  intro entry hentry
  rw [has, List.any_eq_false] at h
  have hne := h entry hentry
  rw [decide_eq_true_eq] at hne
  exact bne_iff_ne.2 (Ne.symm hne)

/-- What was not given has no values. -/
theorem values_eq_nil_of_has (h : st.has slot = false) : st.values slot = [] := by
  rw [State.values, lookup_eq_none_of_has h]
  rfl

theorem values_put_self (h : st.has slot = false) : (st.put slot values).values slot = values := by
  rw [State.values, put, List.lookup_append, lookup_eq_none_of_has h]
  simp

theorem values_put_of_ne (h : other ≠ slot) :
    (st.put slot values).values other = st.values other := by
  have hnone : List.lookup other [(slot, values)] = none := by
    simp [List.lookup_cons, beq_eq_false_iff_ne.2 h]
  rw [State.values, put, List.lookup_append, hnone, Option.or_none, State.values]

/-! ## What was given -/

/-- What was read so far are these options, each once. -/
structure Holds (st : State) (given : List Switch) : Prop where
  settled : st.pending = none
  has_iff : ∀ slot, st.has slot ↔ ∃ s ∈ given, s.slot = slot
  values_eq : ∀ s ∈ given, st.values s.slot = s.values

theorem holds_initial : initial.Holds [] where
  settled := rfl
  has_iff := by simp [has, initial]
  values_eq := by simp

/-- In which order they came makes no difference. -/
theorem Holds.perm {other : List Switch} (h : st.Holds given) (hperm : given.Perm other) :
    st.Holds other where
  settled := h.settled
  has_iff := by
    intro slot
    rw [h.has_iff]
    exact exists_congr fun s => and_congr_left' hperm.mem_iff
  values_eq := fun s hs => h.values_eq s (hperm.mem_iff.2 hs)

theorem Holds.has_eq_false (h : st.Holds given) (hnew : ∀ s ∈ given, s.slot ≠ slot) :
    st.has slot = false := by
  rw [← Bool.not_eq_true, h.has_iff]
  rintro ⟨s, hs, heq⟩
  exact hnew s hs heq

theorem Holds.put (h : st.Holds given) (hnew : ∀ t ∈ given, t.slot ≠ s.slot) :
    (st.put s.slot s.values).Holds (given ++ [s]) where
  settled := h.settled
  has_iff := by
    intro slot
    rw [has_put, h.has_iff]
    simp [or_and_right, exists_or]
  values_eq := by
    intro t ht
    rcases List.mem_append.1 ht with ht | ht
    · rw [values_put_of_ne (hnew t ht)]
      exact h.values_eq t ht
    · obtain rfl := List.mem_singleton.1 ht
      exact values_put_self (h.has_eq_false hnew)

/-! ## Reading the options -/

theorem settle_eq (h : st.pending = none) : orComplain st.settle = .ok st := by
  rw [settle, h]
  rfl

theorem store_eq_put (hnew : st.has slot = false) (hvalues : [] ∉ values) :
    orComplain (st.store slot values) = .ok (st.put slot values) :=
  orComplain_eq_ok.2 (store_eq.2 ⟨hnew, hvalues, rfl⟩)

theorem attached_eq {value : Text} (hsettled : st.pending = none) (hnew : st.has slot = false)
    (hvalue : value ≠ []) : st.attached slot value = .ok (st.put slot [value]) := by
  rw [attached, settle_eq hsettled]
  exact store_eq_put hnew (by simpa using hvalue.symm)

/-- An option is put away under its own name, with all that stands behind its equals sign. -/
theorem readAll_switch (hsettled : st.pending = none) (hnew : st.has s.slot = false)
    (hvalues : [] ∉ s.values) (rest : List Text) :
    st.readAll config (s.argument :: rest) = (st.put s.slot s.values).readAll config rest := by
  have hvalue : ∀ path, s.values = [path] → path ≠ [] := by
    rintro path hs rfl
    simp [hs] at hvalues
  cases s with
  | config path => exact bind_of_eq_ok (attached_eq hsettled hnew (hvalue path rfl)) _
  | mappings path => exact bind_of_eq_ok (attached_eq hsettled hnew (hvalue path rfl)) _
  | verbose =>
    have hflag : st.flag .verbose (.short config) = .ok (st.put .verbose []) := by
      rw [flag, settle_eq hsettled]
      exact store_eq_put hnew hvalues
    have hletter : (st.flag .verbose (.short config) >>= .ok) = .ok (st.put .verbose []) :=
      bind_of_eq_ok hflag _
    exact bind_of_eq_ok hletter _

/-- So are all options, one after the other, if each is there once. -/
theorem readAll_switches (h : st.Holds given)
    (hnodup : ((given ++ switches).map Switch.slot).Nodup)
    (hvalues : ∀ s ∈ switches, [] ∉ s.values) (rest : List Text) :
    ∃ next : State, next.Holds (given ++ switches) ∧
      st.readAll config (switches.map Switch.argument ++ rest) = next.readAll config rest := by
  induction switches generalizing st given with
  | nil =>
    rw [List.append_nil]
    exact ⟨st, h, rfl⟩
  | cons s switches ih =>
    rw [List.append_cons] at hnodup ⊢
    have hnew : ∀ t ∈ given, t.slot ≠ s.slot := by
      intro t ht heq
      have hgiven : ((given ++ [s]).map Switch.slot).Nodup :=
        hnodup.sublist ((List.sublist_append_left _ _).map _)
      rw [List.map_append, List.nodup_append] at hgiven
      exact hgiven.2.2 _ (List.mem_map_of_mem ht) _ (List.mem_singleton_self _) heq
    obtain ⟨next, hnext, hread⟩ :=
      ih (h.put hnew) hnodup fun t ht => hvalues t (List.mem_cons_of_mem _ ht)
    refine ⟨next, hnext, ?_⟩
    rw [List.map_cons, List.cons_append, readAll_switch h.settled (h.has_eq_false hnew)
      (hvalues s (List.mem_cons_self ..)), hread]

/-! ## Reading the paths -/

/-- Behind the separator one path after the other is taken. -/
theorem foldlM_path (first : List Text) (hpending : st.pending = some (.paths, first)) :
    paths.foldlM path st = .ok { st with pending := some (.paths, first ++ paths) } := by
  induction paths generalizing st first with
  | nil =>
    rw [List.append_nil, ← hpending]
    rfl
  | cons p paths ih =>
    have hpath : st.path p = .ok { st with pending := some (.paths, first ++ [p]) } := by
      rw [path, hpending]
    have hrest := @ih { st with pending := some (.paths, first ++ [p]) } (first ++ [p]) rfl
    rw [List.append_assoc, List.singleton_append] at hrest
    rw [List.foldlM_cons, hpath]
    exact hrest

theorem settle_paths (hpending : st.pending = some (.paths, paths)) (hnew : st.has .paths = false) :
    orComplain st.settle =
      if [] ∈ paths then .error (.valueMissing .paths)
      else .ok { st.put .paths paths with pending := none } := by
  have hhas : State.has { st with pending := none } .paths = false := hnew
  rw [settle, hpending]
  simp only [if_true, storePaths, hhas, Bool.false_eq_true, if_false]
  split <;> rfl

/-- All that stands behind the separator is put away as paths, unless one of them is empty. -/
theorem readAll_separator (hsettled : st.pending = none) (hnew : st.has .paths = false)
    (paths : List Text) :
    ([] ∈ paths → st.readAll config ("--".toList :: paths) = .error (.valueMissing .paths)) ∧
    ([] ∉ paths → ∃ next : State, st.readAll config ("--".toList :: paths) = .ok next ∧
      next.values .paths = paths ∧
      ∀ slot, slot ≠ .paths → next.values slot = st.values slot ∧ next.has slot = st.has slot) := by
  have hread : st.readAll config ("--".toList :: paths) =
      (paths.foldlM path st >>= fun next => orComplain next.settle) := rfl
  rw [hread]
  cases paths with
  | nil =>
    refine ⟨fun h => absurd h List.not_mem_nil, fun _ => ⟨st, ?_, ?_, fun _ _ => ⟨rfl, rfl⟩⟩⟩
    · exact settle_eq hsettled
    · exact values_eq_nil_of_has hnew
  | cons p paths =>
    have hfirst : st.path p = .ok { st with pending := some (.paths, [p]) } := by
      rw [path, hsettled]
      simp only [settle_eq hsettled]
      rfl
    have hrest := @foldlM_path { st with pending := some (.paths, [p]) } paths [p] rfl
    have hsettle := @settle_paths { st with pending := some (.paths, p :: paths) } (p :: paths) rfl
      hnew
    have hall : ((p :: paths).foldlM path st >>= fun next => orComplain next.settle) =
        if [] ∈ p :: paths then .error (.valueMissing .paths)
        else .ok { st.put .paths (p :: paths) with pending := none } := by
      rw [List.foldlM_cons, hfirst]
      simp only [bind, Except.bind] at hrest ⊢
      rw [hrest]
      exact hsettle
    rw [hall]
    constructor
    · intro hempty
      rw [if_pos hempty]
    · intro hempty
      rw [if_neg hempty]
      refine ⟨_, rfl, values_put_self hnew, fun slot hslot => ⟨values_put_of_ne hslot, ?_⟩⟩
      exact Bool.eq_iff_iff.2 (has_put.trans (or_iff_left hslot.symm))

end State

/-! ## Whole command lines -/

open State (Holds)

variable {request : Request} {switches : List Switch}

theorem nodup_switches (request : Request) : (request.switches.map Switch.slot).Nodup := by
  obtain ⟨paths, _ | config, _ | mappings, _ | _⟩ := request <;>
    simp [Request.switches, Switch.slot]

/-- The options that are written are those of the request. -/
theorem mem_switches_iff (request : Request) (s : Switch) :
    s ∈ request.switches ↔
      match s with
      | .config path => request.config = some path
      | .mappings path => request.mappings = some path
      | .verbose => request.verbose = true := by
  obtain ⟨paths, _ | config, _ | mappings, _ | _⟩ := request <;> cases s <;>
    simp [Request.switches, eq_comm]

/-- An option that was given has the values with which it is there. -/
theorem State.Holds.values_toList {st : State} (h : st.Holds request.switches) :
    st.values .config = request.config.toList ∧ st.values .mappings = request.mappings.toList ∧
      st.has .verbose = request.verbose := by
  have hnone : ∀ slot, (∀ s ∈ request.switches, s.slot ≠ slot) → st.values slot = [] :=
    fun slot hnew => State.values_eq_nil_of_has (h.has_eq_false hnew)
  refine ⟨?_, ?_, ?_⟩
  · cases hconfig : request.config with
    | some path => exact h.values_eq (.config path) ((mem_switches_iff request _).2 hconfig)
    | none =>
      refine hnone .config fun s hs => ?_
      cases s <;> simp [Switch.slot, mem_switches_iff, hconfig] at hs ⊢
  · cases hmappings : request.mappings with
    | some path => exact h.values_eq (.mappings path) ((mem_switches_iff request _).2 hmappings)
    | none =>
      refine hnone .mappings fun s hs => ?_
      cases s <;> simp [Switch.slot, mem_switches_iff, hmappings] at hs ⊢
  · rw [Bool.eq_iff_iff, h.has_iff]
    constructor
    · rintro ⟨s, hs, hslot⟩
      cases s with
      | verbose => exact (mem_switches_iff request _).1 hs
      | _ => cases hslot
    · intro hverbose
      exact ⟨.verbose, (mem_switches_iff request _).2 hverbose, rfl⟩

/-- Written options ask for no command. -/
theorem read_written_eq (config : Option Text) (switches : List Switch) (paths : List Text) :
    read config (written switches paths) =
      (State.initial.readAll config (written switches paths) >>= fun st =>
        configOr config (st.values .config).head? >>= fun result =>
          .ok ⟨.audit, Request.options ⟨st.values .paths, result, (st.values .mappings).head?,
            st.has .verbose⟩⟩) := by
  have hdash : (written switches paths).head?.bind List.head? = some '-' := by
    rcases switches with _ | ⟨_ | _ | _, switches⟩ <;> rfl
  have hcommand : ∀ name : Text, name.head? ≠ some '-' →
      (written switches paths).head? ≠ some name := by
    intro name hname heq
    rw [heq] at hdash
    exact hname hdash
  rw [read, if_neg (hcommand _ (by decide)), if_neg (hcommand _ (by decide))]
  rfl

/-- A request whose options are written out in any order, with the paths behind a separator, is read
as it is, whatever its values look like, and if it names no settings file, the variable does. Only
an empty path is refused, also that of the variable. -/
theorem read_written (hperm : switches.Perm request.switches) (hconfig : request.config ≠ some [])
    (hmappings : request.mappings ≠ some []) (config : Option Text) :
    ([] ∉ request.paths →
      (request.config.isSome ∨ config ≠ some [] →
        read config (written switches request.paths) =
          .ok ⟨.audit, { request with config := request.config.or config }.options⟩) ∧
      (request.config = none ∧ config = some [] →
        read config (written switches request.paths) = .error (.valueMissing .config))) ∧
    ([] ∈ request.paths →
      read config (written switches request.paths) = .error (.valueMissing .paths)) := by
  have hnodup : ((([] : List Switch) ++ switches).map Switch.slot).Nodup :=
    ((hperm.map Switch.slot).nodup_iff).2 (nodup_switches request)
  have hvalues : ∀ s ∈ switches, [] ∉ s.values := by
    intro s hs hempty
    have hmem := (mem_switches_iff request s).1 (hperm.mem_iff.1 hs)
    cases s <;> simp [Switch.values] at hempty <;> subst hempty
    · exact hconfig hmem
    · exact hmappings hmem
  obtain ⟨st, hholds, hread⟩ := @State.readAll_switches config _ _ _ State.holds_initial hnodup
    hvalues ("--".toList :: request.paths)
  have hst := hholds.perm hperm
  have hpaths : st.has .paths = false := hst.has_eq_false fun s _ => s.slot_ne_paths
  obtain ⟨hempty, hfull⟩ := @State.readAll_separator config _ hst.settled hpaths request.paths
  have hall : State.initial.readAll config (written switches request.paths) =
      st.readAll config ("--".toList :: request.paths) := hread
  rw [read_written_eq, hall]
  constructor
  · intro hfilled
    obtain ⟨next, hnext, hnextPaths, hsame⟩ := hfull hfilled
    obtain ⟨hvaluesConfig, hvaluesMappings, hhasVerbose⟩ := hst.values_toList
    rw [hnext]
    simp only [bind, Except.bind, hnextPaths, (hsame .config (by simp)).1, hvaluesConfig,
      (hsame .mappings (by simp)).1, hvaluesMappings, (hsame .verbose (by simp)).2,
      hhasVerbose, Option.head?_toList]
    constructor
    · intro hvariable
      rw [configOr_eq hvariable]
    · rintro ⟨hnone, rfl⟩
      rw [hnone]
      rfl
  · intro hmissing
    rw [hempty hmissing]
    rfl

/-- A request whose values look like other arguments. -/
def hostileRequest : Request where
  paths := ["init".toList, "help".toList, "--".toList, "-v".toList]
  config := some "--=x".toList
  mappings := some "-".toList
  verbose := true

/-- Values that look like options, commands or the separator are values, and a settings file of the
command line wins over that of the variable. -/
theorem read_written_hostileRequest :
    read (some "v.json".toList)
        (["-v", "--mappings=-", "--config=--=x", "--", "init", "help", "--", "-v"].map
          String.toList) =
      .ok ⟨.audit, hostileRequest.options⟩ ∧
    read (some "v.json".toList) (["-v", "--", "init"].map String.toList) =
      .ok ⟨.audit, Request.options ⟨["init".toList], some "v.json".toList, none, true⟩⟩ ∧
    read (some []) (["-v", "--", "init"].map String.toList) = .error (.valueMissing .config) ∧
    read none (["-v", "--", "init", ""].map String.toList) = .error (.valueMissing .paths) := by
  have hperm : [Switch.verbose, .mappings "-".toList, .config "--=x".toList].Perm
      hostileRequest.switches := by
    decide
  obtain ⟨hread, -⟩ := read_written hperm (by decide) (by decide) (some "v.json".toList)
  obtain ⟨hvariable, -⟩ := @read_written ⟨["init".toList], none, none, true⟩ _ (.refl _)
    (by simp) (by simp) (some "v.json".toList)
  obtain ⟨hvariable', -⟩ := @read_written ⟨["init".toList], none, none, true⟩ _ (.refl _)
    (by simp) (by simp) (some [])
  obtain ⟨-, hempty⟩ := @read_written ⟨["init".toList, []], none, none, true⟩ _ (.refl _)
    (by simp) (by simp) none
  exact ⟨(hread (by decide)).1 (.inl rfl), (hvariable (by decide)).1 (.inr (by decide)),
    (hvariable' (by decide)).2 ⟨rfl, rfl⟩, hempty (by decide)⟩

end CommandLine

end LiteralAudit
