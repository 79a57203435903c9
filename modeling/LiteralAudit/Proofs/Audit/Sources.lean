import LiteralAudit.Proofs.Audit.Report
import LiteralAudit.Proofs.Replacements
import LiteralAudit.Proofs.Settings.Rules
import Mathlib.Data.List.Find

/-!
# What an audit asks for

An audit asks its machine for the text of the settings file that it was given, or else for the
directory where it runs, to search for one from there; for the text of the file with further
replacements; and for the files of its list. On two machines that answer these requests alike it
comes to the same and says the same, whatever else there is on them.
-/

namespace LiteralAudit

namespace World

/-- The text of the file that a path names, or why there is none. -/
def text (w : World) (p : Path) : Except AccessFault Text :=
  match w.tree.read w.here p with
  | .error fault => .error fault
  | .ok bytes =>
    match decodeText bytes with
    | some t => .ok t
    | none => .error .notUtf8

theorem text_of_read {w : World} {p : Path} {t : Text}
    (h : w.tree.read w.here p = .ok (encodeText t)) : w.text p = .ok t := by
  rw [text, h]
  simp only [decodeText_encodeText]

/-- A machine on which a text is all that there is. -/
def holding (t : Text) : World := .quiet ⟨[([.of "c"], .file (encodeText t))]⟩ []

theorem read_holding (t : Text) :
    (holding t).tree.read (holding t).here (.of "c") = .ok (encodeText t) := rfl

/-- Whether a path names something. -/
def has (w : World) (p : Path) : Bool := w.tree.isPresent w.here p

theorem run_isPresent (w : World) (p : Path) : (host.isPresent p).run w = (w.has p, w) := rfl

theorem run_directory (w : World) : host.directory.run w = (w.directory, w) := rfl

theorem run_keyOrder (w : World) : host.keyOrder.run w = (w.order, w) := rfl

theorem directory_eq_ok {w : World} (h : w.tree.isDirectory w.here) :
    w.directory = .ok (pathOf w.here) := if_pos h

theorem run_readText_eq (w : World) (p : Path) : (host.readText p).run w = (w.text p, w) := by
  have hread : (host.read p).run w = (w.tree.read w.here p, w) := rfl
  unfold Host.readText text
  rw [run_bind hread]
  cases w.tree.read w.here p with
  | error fault => rfl
  | ok bytes =>
    simp only
    cases decodeText bytes <;> rfl

/-- The program answers this on the machine and says this on its streams, behind what was
said before. It changes nothing else. -/
def Says {α : Type} (x : StateM World α) (w : World) (answer : α) (output errors : Text) :
    Prop :=
  x.run w = (answer, { w with output := w.output ++ output, errors := w.errors ++ errors })

end World

theorem World.says_of_quiet {α : Type} {x : StateM World α} {w : World} {answer : α}
    (h : x.run w = (answer, w)) : Says x w answer [] [] := by
  rw [Says, h, List.append_nil, List.append_nil]

theorem World.says_of_output {α : Type} {x : StateM World α} {w : World} {answer : α} {t : Text}
    (h : x.run w = (answer, w.say .output t)) : Says x w answer t [] := by
  rw [Says, h, List.append_nil]
  rfl

/-! ## Settings -/

namespace Settings

/-- The paths that a search for a settings file asks for, one after the other. -/
def asked (w : World) : List Path → List Path
  | [] => []
  | directory :: outer =>
    Path.join directory fileName ::
      if w.has (Path.join directory fileName) then []
      else
        Path.join directory boundaryName ::
          if w.has (Path.join directory boundaryName) then [] else asked w outer

/-- The settings file that a search finds. -/
def found? (w : World) : List Path → Option Path
  | [] => none
  | directory :: outer =>
    if w.has (Path.join directory fileName) then some (Path.join directory fileName)
    else if w.has (Path.join directory boundaryName) then none
    else found? w outer

/-- The settings in the file that a path names. -/
def loadOn (w : World) (p : Path) : Except Trouble Settings :=
  match w.text p with
  | .error fault => .error (.unreadable .settings p fault)
  | .ok t => check w.order p t

theorem run_load (w : World) (p : Path) : (load World.host p).run w = (loadOn w p, w) := by
  unfold load loadOn
  rw [World.run_bind (World.run_readText_eq w p)]
  cases w.text p with
  | error fault => rfl
  | ok t =>
    simp only
    rw [World.run_bind (World.run_keyOrder w)]
    rfl

/-- Settings are accepted if a text holds them and they break no rule. -/
theorem check_eq_ok_iff {order : KeyOrder} {p : Path} {t : Text} {s : Settings} :
    check order p t = .ok s ↔ ofText t = .ok s ∧ s.violation? order = none := by
  unfold check
  cases ofText t with
  | error fault => simp
  | ok read =>
    cases hrules : read.violation? order with
    | none =>
      simp only [hrules, Except.ok.injEq]
      exact ⟨fun h => ⟨h, h ▸ hrules⟩, fun h => h.1⟩
    | some violation =>
      simp only [hrules, Except.ok.injEq, reduceCtorEq, false_iff, not_and]
      rintro rfl
      simp [hrules]

theorem loadOn_eq_ok_iff {w : World} {p : Path} {s : Settings} :
    loadOn w p = .ok s ↔
      ∃ t, w.text p = .ok t ∧ ofText t = .ok s ∧ s.violation? w.order = none := by
  unfold loadOn
  cases w.text p with
  | error fault => simp
  | ok t => simp [check_eq_ok_iff]

/-- With at most one key without quotes a text is checked alike in every order of its keys. -/
theorem check_congr {order other : KeyOrder} {p : Path} {t : Text}
    (h : ∀ s, ofText t = .ok s → s.LacksQuotesOnce) : check other p t = check order p t := by
  unfold check
  cases hread : ofText t with
  | error fault => rfl
  | ok s => simp only [(h s hread).violation?_eq order other]

theorem loadOn_congr {w w' : World} {p : Path} (htext : w'.text p = w.text p)
    (horder : w'.order = w.order ∨
      ∀ t s, w.text p = .ok t → ofText t = .ok s → s.LacksQuotesOnce) :
    loadOn w' p = loadOn w p := by
  rw [loadOn, loadOn, htext]
  cases ht : w.text p with
  | error fault => rfl
  | ok t =>
    rcases horder with heq | honce
    · simp only [heq]
    · exact check_congr fun s hs => honce t s ht hs

theorem run_firstFile? (w : World) (directories : List Path) :
    (firstFile? World.host directories).run w = (found? w directories, w) := by
  induction directories with
  | nil => rfl
  | cons directory outer ih =>
    rw [firstFile?, found?, World.run_bind (World.run_isPresent w _)]
    by_cases hfile : w.has (Path.join directory fileName)
    · rw [if_pos hfile, if_pos hfile]
      rfl
    rw [if_neg hfile, if_neg hfile, World.run_bind (World.run_isPresent w _)]
    by_cases hboundary : w.has (Path.join directory boundaryName)
    · rw [if_pos hboundary, if_pos hboundary]
      rfl
    rw [if_neg hboundary, if_neg hboundary]
    exact ih

/-- A search asks for nothing beyond the file that it finds or the boundary. -/
theorem found?_congr {w w' : World} {directories : List Path}
    (h : ∀ p ∈ asked w directories, w'.has p = w.has p) :
    found? w' directories = found? w directories := by
  induction directories with
  | nil => rfl
  | cons directory outer ih =>
    rw [asked] at h
    rw [found?, found?, h _ (List.mem_cons_self ..)]
    by_cases hfile : w.has (Path.join directory fileName)
    · rw [if_pos hfile, if_pos hfile]
    rw [if_neg hfile] at h ⊢
    rw [if_neg hfile, h _ (List.mem_cons_of_mem _ (List.mem_cons_self ..))]
    by_cases hboundary : w.has (Path.join directory boundaryName)
    · rw [if_pos hboundary, if_pos hboundary]
    rw [if_neg hboundary] at h ⊢
    rw [if_neg hboundary]
    exact ih fun p hp => h p (List.mem_cons_of_mem _ (List.mem_cons_of_mem _ hp))

/-- The settings that a search comes to. -/
def discovered (w : World) (directories : List Path) : Except Trouble Found :=
  match found? w directories with
  | some p => (loadOn w p).map fun s => ⟨s, true⟩
  | none => .ok ⟨standard, false⟩

theorem run_discover (w : World) (directory : Path) :
    (discover World.host directory).run w = (discovered w (Path.ancestors directory), w) := by
  have hfound : (nearestFile? World.host directory).run w =
      (found? w (Path.ancestors directory), w) := run_firstFile? w _
  unfold discover discovered
  rw [World.run_bind hfound]
  cases found? w (Path.ancestors directory) with
  | none => rfl
  | some p =>
    simp only
    rw [World.run_bind (run_load w p)]
    rfl

/-- The directories that are searched, from the one where the program runs upwards. -/
def searched (w : World) : List Path := Path.ancestors (World.pathOf w.here)

end Settings

/-! ## Replacements -/

namespace Replacements

/-- The table that the text of a file holds. -/
def check (p : Path) (t : Text) : Except Trouble Replacements :=
  match ofText t with
  | .error fault => .error (.malformed .mappings p t fault)
  | .ok table => .ok table

/-- The table in the file that a path names. -/
def loadOn (w : World) (p : Path) : Except Trouble Replacements :=
  match w.text p with
  | .error fault => .error (.unreadable .mappings p fault)
  | .ok t => check p t

theorem run_load (w : World) (p : Path) : (load World.host p).run w = (loadOn w p, w) := by
  unfold load loadOn
  rw [World.run_bind (World.run_readText_eq w p)]
  cases w.text p with
  | error fault => rfl
  | ok t =>
    simp only [check]
    cases ofText t <;> rfl

theorem check_eq_ok_iff {p : Path} {t : Text} {table : Replacements} :
    check p t = .ok table ↔ ofText t = .ok table := by
  unfold check
  cases ofText t <;> simp

end Replacements

namespace Audit

/-- The settings are those of the file that is named, or else of the file that is found from
the directory where the program runs, or else the standard ones. -/
theorem settingsOn_eq (options : Options) (w : World) :
    settingsOn options w =
      match options.config with
      | some p => Settings.loadOn w p
      | none =>
        match w.directory with
        | .error fault => .error (.noDirectory fault)
        | .ok directory =>
          match Settings.found? w (Path.ancestors directory) with
          | some p => Settings.loadOn w p
          | none => .ok .standard := by
  unfold settingsOn settings
  cases options.config with
  | some p => exact congrArg Prod.fst (Settings.run_load w p)
  | none =>
    simp only
    rw [World.run_bind (World.run_directory w)]
    cases w.directory with
    | error fault => rfl
    | ok directory =>
      simp only
      rw [World.run_bind (Settings.run_discover w directory), Settings.discovered]
      cases Settings.found? w (Path.ancestors directory) with
      | none => rfl
      | some p =>
        simp only
        cases Settings.loadOn w p <;> rfl

/-- The settings file of an audit: the one that is named, or else the one that is found, for
which it has to be known where the program runs. -/
def settingsFile? (options : Options) (w : World) : Except AccessFault (Option Path) :=
  match options.config with
  | some p => .ok (some p)
  | none => w.directory.map fun directory => Settings.found? w (Path.ancestors directory)

theorem settingsOn_eq_settingsFile? (options : Options) (w : World) :
    settingsOn options w =
      match settingsFile? options w with
      | .error fault => .error (.noDirectory fault)
      | .ok (some p) => Settings.loadOn w p
      | .ok none => .ok .standard := by
  rw [settingsOn_eq, settingsFile?]
  cases options.config with
  | some p => rfl
  | none =>
    cases w.directory with
    | error fault => rfl
    | ok directory =>
      simp only [Except.map]
      cases Settings.found? w (Path.ancestors directory) <;> rfl

/-- At most one key in the settings file of an audit lacks its quotes. -/
def LacksQuotesOnce (options : Options) (w : World) : Prop :=
  ∀ p t s, settingsFile? options w = .ok (some p) → w.text p = .ok t →
    Settings.ofText t = .ok s → s.LacksQuotesOnce

/-- The further replacements are those of the file that is named, as a table. -/
theorem furtherOn_eq (options : Options) (w : World) :
    furtherOn options w =
      match options.mappings with
      | none => .ok []
      | some p =>
        match w.text p with
        | .error fault => .error (.unreadable .mappings p fault)
        | .ok t =>
          match Replacements.ofText t with
          | .error fault => .error (.malformed .mappings p t fault)
          | .ok table => .ok table.entries := by
  unfold furtherOn furtherEntries
  cases options.mappings with
  | none => rfl
  | some p =>
    simp only
    rw [World.run_bind (Replacements.run_load w p), Replacements.loadOn]
    cases w.text p with
    | error fault => rfl
    | ok t =>
      simp only [Replacements.check]
      cases Replacements.ofText t <;> rfl

end Audit

/-! ## Two machines -/

theorem takeWhile_congr {α : Type} {p q : α → Bool} {l : List α} (h : ∀ a ∈ l, p a = q a) :
    l.takeWhile p = l.takeWhile q := by
  induction l with
  | nil => rfl
  | cons a l ih =>
    rw [List.takeWhile_cons, List.takeWhile_cons, h a (List.mem_cons_self ..),
      ih fun b hb => h b (List.mem_cons_of_mem _ hb)]

namespace Files

variable {files files' : Files} (context : Context) {paths : List Path}

theorem fault?_congr {p : Path} (h : files' p = files p) : files'.fault? p = files.fault? p := by
  rw [fault?, fault?, h]

theorem survey_congr (h : ∀ p ∈ paths, files' p = files p) :
    files'.survey context paths = files.survey context paths := by
  have htrouble : paths.findSome? files'.trouble? = paths.findSome? files.trouble? := by
    have hall : paths.filterMap files'.trouble? = paths.filterMap files.trouble? :=
      List.filterMap_congr fun p hp => by rw [trouble?, trouble?, fault?_congr (h p hp)]
    rw [← List.head?_filterMap, ← List.head?_filterMap, hall]
  have hskipped : (paths.filter fun p => (files' p).isNone) =
      paths.filter fun p => (files p).isNone :=
    List.filter_congr fun p hp => by rw [h p hp]
  rw [survey, survey, htrouble, findings_congr context h, hskipped]

theorem delivered_congr (h : ∀ p ∈ paths, files' p = files p) :
    files'.delivered context paths = files.delivered context paths := by
  have htake : paths.takeWhile (fun p => (files'.fault? p).isNone) =
      paths.takeWhile fun p => (files.fault? p).isNone :=
    takeWhile_congr fun p hp => by rw [fault?_congr (h p hp)]
  rw [delivered, delivered, htake]
  exact findings_congr context fun p hp => h p (List.takeWhile_subset _ hp)

theorem report_congr (colour : Bool) (labels : Labels) (h : ∀ p ∈ paths, files' p = files p) :
    files'.report colour labels context paths = files.report colour labels context paths := by
  rw [report, report, delivered_congr context h, survey_congr context h]

end Files

namespace Audit

variable {options : Options} {w w' : World}

/-- The second machine answers all that an audit asks the first one for. The order of the keys
counts only if there is a choice between keys without quotes. -/
structure SameSources (options : Options) (w w' : World) : Prop where
  directory : options.config = none → w'.directory = w.directory
  asked : options.config = none → ∀ directory, w.directory = .ok directory →
    ∀ p ∈ Settings.asked w (Path.ancestors directory), w'.has p = w.has p
  settings : ∀ p, settingsFile? options w = .ok (some p) → w'.text p = w.text p
  order : w'.order = w.order ∨ LacksQuotesOnce options w
  mappings : ∀ p, options.mappings = some p → w'.text p = w.text p
  listed : ∀ s, settingsOn options w = .ok s → ∀ p ∈ paths options s, w'.files p = w.files p

theorem SameSources.settingsFile?_eq (h : SameSources options w w') :
    settingsFile? options w' = settingsFile? options w := by
  unfold settingsFile?
  cases hconfig : options.config with
  | some p => rfl
  | none =>
    simp only [h.directory hconfig]
    cases hdirectory : w.directory with
    | error fault => simp only [Except.map]
    | ok directory =>
      exact congrArg Except.ok (Settings.found?_congr (h.asked hconfig directory hdirectory))

theorem SameSources.settingsOn_eq (h : SameSources options w w') :
    settingsOn options w' = settingsOn options w := by
  rw [settingsOn_eq_settingsFile?, settingsOn_eq_settingsFile?, h.settingsFile?_eq]
  match hfile : settingsFile? options w with
  | .error fault => rfl
  | .ok none => rfl
  | .ok (some p) =>
    refine Settings.loadOn_congr (h.settings p hfile) (h.order.imp_right ?_)
    exact fun honce t s => honce p t s hfile

theorem furtherOn_congr (h : ∀ p, options.mappings = some p → w'.text p = w.text p) :
    furtherOn options w' = furtherOn options w := by
  rw [furtherOn_eq, furtherOn_eq]
  cases hmappings : options.mappings with
  | none => rfl
  | some p => simp only [h p hmappings]

/-- Of the settings a run needs no more than the labels, the context and the list of files. -/
theorem says_of_ok (colour : Bool) {s s' : Settings} {further : List (Text × Text)}
    (hs : settingsOn options w = .ok s) (hs' : settingsOn options w' = .ok s')
    (hfurther : furtherOn options w = .ok further)
    (hfurther' : furtherOn options w' = .ok further)
    (hlabels : s'.labels = s.labels) (hcontext : context s' further = context s further)
    (hpaths : paths options s' = paths options s)
    (hfiles : ∀ p ∈ paths options s, w'.files p = w.files p) :
    ∃ result output, World.Says (run World.host colour options) w result output [] ∧
      World.Says (run World.host colour options) w' result output [] := by
  refine ⟨_, _, World.says_of_output (run_of_ok colour options w hs hfurther), ?_⟩
  apply World.says_of_output
  rw [run_of_ok colour options w' hs' hfurther', hlabels, hcontext, hpaths,
    Files.survey_congr _ hfiles, Files.report_congr _ colour _ hfiles]

theorem says_of_settings_error (colour : Bool) {trouble : Trouble}
    (h : settingsOn options w = .error trouble) :
    World.Says (run World.host colour options) w (.error trouble) [] [] :=
  World.says_of_quiet (run_of_settings_error colour options w h)

theorem says_of_further_error (colour : Bool) {s : Settings} {trouble : Trouble}
    (hs : settingsOn options w = .ok s) (h : furtherOn options w = .error trouble) :
    World.Says (run World.host colour options) w (.error trouble) [] [] :=
  World.says_of_quiet (run_of_further_error colour options w hs h)

/-- Two runs with the same further replacements end alike, whether these are there or not. -/
theorem says_of_settings (colour : Bool) {s s' : Settings} (hs : settingsOn options w = .ok s)
    (hs' : settingsOn options w' = .ok s') (hfurther : furtherOn options w' = furtherOn options w)
    (hlabels : s'.labels = s.labels) (hcontext : ∀ further, context s' further = context s further)
    (hpaths : paths options s' = paths options s)
    (hfiles : ∀ p ∈ paths options s, w'.files p = w.files p) :
    ∃ result output, World.Says (run World.host colour options) w result output [] ∧
      World.Says (run World.host colour options) w' result output [] := by
  cases h : furtherOn options w with
  | error trouble =>
    rw [h] at hfurther
    exact ⟨_, _, says_of_further_error colour hs h, says_of_further_error colour hs' hfurther⟩
  | ok further =>
    rw [h] at hfurther
    exact says_of_ok colour hs hs' h hfurther hlabels (hcontext further) hpaths hfiles

/-- Nothing that an audit does not ask for makes a difference to it. -/
theorem SameSources.alike (h : SameSources options w w') (colour : Bool) :
    ∃ result output, World.Says (run World.host colour options) w result output [] ∧
      World.Says (run World.host colour options) w' result output [] := by
  have hsettings := h.settingsOn_eq
  cases hs : settingsOn options w with
  | error trouble =>
    rw [hs] at hsettings
    exact ⟨_, _, says_of_settings_error colour hs, says_of_settings_error colour hsettings⟩
  | ok s =>
    rw [hs] at hsettings
    exact says_of_settings colour hs hsettings (furtherOn_congr h.mappings) rfl (fun _ => rfl)
      rfl (h.listed s hs)

/-! ## The table -/

/-- A replacement is that of the further ones, or else that of the settings, or else the
standard one. -/
theorem find?_context (s : Settings) (extra : Replacements) (literal : Text) :
    (context s extra.entries).table.find? literal =
      (extra.find? literal).or
        ((s.mappings.find? literal).or (Replacements.standard.find? literal)) := by
  rw [context, Settings.context, Replacements.find?_layer_entries,
    Replacements.find?_layer_entries]

theorem size_context (s : Settings) (extra : Replacements) :
    (context s extra.entries).table.size =
      (extra.keys ++ s.mappings.keys ++ Replacements.standard.keys).dedup.length := by
  apply Replacements.size_eq_of_mem_keys_iff
  intro key
  simp only [List.mem_append, Replacements.mem_keys_iff, find?_context, Option.isSome_or,
    Bool.or_eq_true, or_assoc]

theorem size_context_pos (s : Settings) (extra : Replacements) :
    0 < (context s extra.entries).table.size := by
  have hstandard : (Replacements.standard.find? "\"OK\"".toList).isSome := by
    rw [Replacements.find?_standard]
    decide +kernel
  have hmem : "\"OK\"".toList ∈
      (extra.keys ++ s.mappings.keys ++ Replacements.standard.keys).dedup :=
    List.mem_dedup.2 (List.mem_append_right _ (Replacements.mem_keys_iff.2 hstandard))
  rw [size_context]
  exact List.length_pos_of_mem hmem

/-- The further replacements of a run are a table. -/
theorem exists_table_of_furtherOn {further : List (Text × Text)}
    (h : furtherOn options w = .ok further) :
    ∃ extra : Replacements, further = extra.entries ∧
      (options.mappings = none → extra = .empty) ∧
      ∀ p, options.mappings = some p →
        ∃ t, w.text p = .ok t ∧ Replacements.ofText t = .ok extra := by
  rw [furtherOn_eq] at h
  cases hmappings : options.mappings with
  | none =>
    rw [hmappings] at h
    cases h
    refine ⟨.empty, rfl, fun _ => rfl, ?_⟩
    intro p hp
    cases hp
  | some p =>
    simp only [hmappings] at h
    split at h
    · cases h
    · next t ht =>
      split at h
      · cases h
      · next extra hextra =>
        cases h
        refine ⟨extra, rfl, ?_, ?_⟩
        · intro hnone
          cases hnone
        · intro q hq
          cases hq
          exact ⟨t, ht, hextra⟩

/-- What is left of a run that succeeds. -/
theorem exists_of_run_ok {colour : Bool} {result : Result}
    (h : (run World.host colour options).run w = (.ok result, w')) :
    ∃ s further, settingsOn options w = .ok s ∧ furtherOn options w = .ok further ∧
      w.files.survey (context s further) (paths options s) = .ok result.survey ∧
      result.table = (context s further).table := by
  cases hs : settingsOn options w with
  | error trouble =>
    rw [run_of_settings_error colour options w hs] at h
    cases h
  | ok s =>
    cases hfurther : furtherOn options w with
    | error trouble =>
      rw [run_of_further_error colour options w hs hfurther] at h
      cases h
    | ok further =>
      rw [run_of_ok colour options w hs hfurther] at h
      have hresult := congrArg Prod.fst h
      refine ⟨s, further, rfl, rfl, ?_⟩
      cases hsurvey : w.files.survey (context s further) (paths options s) with
      | error trouble =>
        rw [hsurvey] at hresult
        cases hresult
      | ok survey =>
        rw [hsurvey] at hresult
        cases hresult
        exact ⟨rfl, rfl⟩

end Audit

end LiteralAudit
