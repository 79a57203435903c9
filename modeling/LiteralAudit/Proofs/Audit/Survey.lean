import LiteralAudit.Audit
import LiteralAudit.Proofs.Host
import Mathlib.Data.List.Forall2
import Mathlib.Data.List.TakeWhile

/-!
# The survey of a list of paths

One step of a survey looks at one path: it skips the path, hands a finding on, or ends
the survey. So a survey of sound paths takes the list apart without loss, into findings
and skipped paths, and the first file with something wrong, one that is garbled or cannot
be read, cuts every other survey off behind what was handed on before it.
-/

namespace LiteralAudit

namespace Survey

/-- A survey with another one behind it. -/
def append (a b : Survey) : Survey := ⟨a.findings ++ b.findings, a.skipped ++ b.skipped⟩

end Survey

/-! ## What a survey comes to -/

namespace Files

/-- What there is to find in the files that paths name. -/
def findings (files : Files) (context : Context) (paths : List Path) : List Finding :=
  paths.filterMap fun p => (files.source? p).map (Finding.ofText context p)

/-- The findings that are handed on: those in front of the first file with something wrong. -/
def delivered (files : Files) (context : Context) (paths : List Path) : List Finding :=
  files.findings context (paths.takeWhile fun p => (files.fault? p).isNone)

/-- Why a survey that comes to a path ends there, if it does. -/
def trouble? (files : Files) (p : Path) : Option Trouble :=
  (files.fault? p).map (.unreadable .source p)

/-- The result of a survey. -/
def survey (files : Files) (context : Context) (paths : List Path) : Except Trouble Survey :=
  match paths.findSome? files.trouble? with
  | some trouble => .error trouble
  | none => .ok ⟨files.findings context paths, paths.filter fun p => (files p).isNone⟩

section Steps

variable {files : Files} {p : Path} (context : Context) (paths : List Path)

theorem survey_cons_skipped (h : files p = none) :
    files.survey context (p :: paths) =
      (files.survey context paths).map (Survey.consSkipped p) ∧
    files.delivered context (p :: paths) = files.delivered context paths := by
  have hfault : files.fault? p = none := by rw [fault?, h]
  constructor
  · unfold survey
    rw [List.findSome?_cons, trouble?, hfault, Option.map_none]
    cases paths.findSome? files.trouble? with
    | some trouble => rfl
    | none => simp [findings, source?, h, Survey.consSkipped, Except.map]
  · simp [delivered, findings, source?, hfault, h]

theorem survey_cons_finding {t : Text} (h : files.source? p = some t) :
    files.survey context (p :: paths) =
      (files.survey context paths).map (Survey.consFinding (Finding.ofText context p t)) ∧
    files.delivered context (p :: paths) =
      Finding.ofText context p t :: files.delivered context paths := by
  have hfile : files p = some (.ok (encodeText t)) := source?_eq_some_iff.1 h
  have hfault : files.fault? p = none := by simp [fault?, hfile, decodeText_encodeText]
  constructor
  · unfold survey
    rw [List.findSome?_cons, trouble?, hfault, Option.map_none]
    cases paths.findSome? files.trouble? with
    | some trouble => rfl
    | none => simp [findings, h, hfile, Survey.consFinding, Except.map]
  · simp [delivered, findings, hfault, h]

theorem survey_cons_faulty {fault : AccessFault} (h : files.fault? p = some fault) :
    files.survey context (p :: paths) = .error (.unreadable .source p fault) ∧
    files.delivered context (p :: paths) = [] := by
  constructor
  · unfold survey
    rw [List.findSome?_cons, trouble?, h, Option.map_some]
  · simp [delivered, findings, h]

end Steps

end Files

/-! ## Programs that keep something of their own -/

section Lift

variable {m : Type → Type} [Monad m] [LawfulMonad m] (host : Host m) (σ : Type)

theorem lift_bind {α β : Type} (x : m α) (f : α → m β) :
    (StateT.lift (x >>= f) : StateT σ m β) = StateT.lift x >>= fun a => StateT.lift (f a) :=
  LawfulMonadLift.monadLift_bind (n := StateT σ m) x f

theorem lift_pure {α : Type} (a : α) : (StateT.lift (pure a) : StateT σ m α) = pure a :=
  LawfulMonadLift.monadLift_pure (m := m) (n := StateT σ m) a

theorem Host.readText_lift (p : Path) :
    (host.lift σ).readText p = StateT.lift (host.readText p) := by
  unfold Host.readText
  rw [lift_bind]
  refine bind_congr fun result => ?_
  cases result with
  | error fault => rw [lift_pure]
  | ok bytes =>
    simp only
    cases decodeText bytes <;> simp only [lift_pure]

theorem Finding.ofFile_lift (context : Context) (p : Path) :
    ofFile (host.lift σ) context p = StateT.lift (ofFile host context p) := by
  unfold ofFile
  rw [lift_bind]
  refine bind_congr fun isFile => ?_
  cases isFile with
  | false => simp only [Bool.false_eq_true, if_false, lift_pure]
  | true =>
    simp only [if_true]
    rw [lift_bind, Host.readText_lift]
    refine bind_congr fun result => ?_
    cases result <;> simp only [lift_pure]

/-- A survey that keeps nothing of its own is the survey of the machine. -/
theorem Survey.ofFiles_lift (context : Context) (deliver : Finding → m Unit)
    (paths : List Path) :
    ofFiles (host.lift σ) context (fun finding => StateT.lift (deliver finding)) paths =
      StateT.lift (ofFiles host context deliver paths) := by
  induction paths with
  | nil => rw [ofFiles, ofFiles, lift_pure]
  | cons p paths ih =>
    rw [ofFiles, ofFiles, lift_bind, Finding.ofFile_lift]
    refine bind_congr fun result => ?_
    match result with
    | .error trouble => simp only [lift_pure]
    | .ok none => simp only [lift_bind, lift_pure, ih]
    | .ok (some finding) => simp only [lift_bind, lift_pure, ih]

/-- A list of paths is surveyed part by part. -/
theorem Survey.ofFiles_append (context : Context) (deliver : Finding → m Unit)
    (p q : List Path) :
    ofFiles host context deliver (p ++ q) = do
      match ← ofFiles host context deliver p with
      | .error trouble => return .error trouble
      | .ok a => return (← ofFiles host context deliver q).map a.append := by
  induction p with
  | nil =>
    have hempty : ∀ result : Except Trouble Survey, result.map empty.append = result := by
      intro result
      cases result <;> rfl
    simp only [List.nil_append, ofFiles, pure_bind, hempty, bind_pure]
  | cons path p ih =>
    simp only [List.cons_append, ofFiles, ih, bind_assoc]
    refine bind_congr fun result => ?_
    match result with
    | .error trouble => simp only [pure_bind]
    | .ok none =>
      simp only [bind_assoc, pure_bind]
      refine bind_congr fun result => ?_
      cases result with
      | error trouble => simp only [pure_bind, Except.map]
      | ok a =>
        simp only [pure_bind, bind_assoc]
        refine bind_congr fun behind => ?_
        cases behind <;> rfl
    | .ok (some finding) =>
      simp only [bind_assoc, pure_bind]
      refine bind_congr fun _ => ?_
      refine bind_congr fun result => ?_
      cases result with
      | error trouble => simp only [pure_bind, Except.map]
      | ok a =>
        simp only [pure_bind, bind_assoc]
        refine bind_congr fun behind => ?_
        cases behind <;> rfl

end Lift

/-! ## Surveys on the modelled machine -/

namespace World

/-- One step of a survey: the file that a path names is looked at. -/
theorem run_ofFile (w : World) (context : Context) (p : Path) :
    (Finding.ofFile host context p).run w =
      (match w.files.fault? p with
       | some fault => .error (.unreadable .source p fault)
       | none => .ok ((w.files.source? p).map (Finding.ofText context p)), w) := by
  unfold Finding.ofFile
  rw [run_bind (run_isFile w p)]
  cases hfile : w.files p with
  | none =>
    simp only [Files.fault?, Files.source?, hfile, Option.isSome_none, Bool.false_eq_true, if_false]
    rfl
  | some content =>
    simp only [Option.isSome_some, if_true]
    rw [run_bind (run_readText hfile)]
    cases content with
    | error fault =>
      simp only [Files.fault?, hfile]
      rfl
    | ok bytes =>
      cases htext : decodeText bytes with
      | none =>
        simp only [Files.fault?, hfile, htext, Option.isNone_none, if_true]
        rfl
      | some t =>
        simp only [Files.fault?, Files.source?, hfile, htext, Option.isNone_some,
          Bool.false_eq_true, if_false]
        simp [Except.toOption, htext]
        rfl

end World

section Runs

variable {σ : Type}

/-- The run of a program whose first part is known, with what the program keeps. -/
theorem run_bind_keeping {α β : Type} {x : StateT σ (StateM World) α} {s s' : σ}
    {w w' : World} {a : α} (h : (x.run s).run w = ((a, s'), w'))
    (f : α → StateT σ (StateM World) β) :
    ((x >>= f).run s).run w = ((f a).run s').run w' := by
  show ((f ((x.run s).run w).1.1).run ((x.run s).run w).1.2).run ((x.run s).run w).2 = _
  rw [h]

theorem run_ofFile_lift (context : Context) (p : Path) (s : σ) (w : World) :
    ((Finding.ofFile (World.host.lift σ) context p).run s).run w =
      (((match w.files.fault? p with
         | some fault => .error (.unreadable .source p fault)
         | none => .ok ((w.files.source? p).map (Finding.ofText context p))), s), w) := by
  rw [Finding.ofFile_lift]
  show ((((Finding.ofFile World.host context p).run w).1, s),
    ((Finding.ofFile World.host context p).run w).2) = _
  rw [World.run_ofFile]

/-- What handing findings on leaves behind, of what the program keeps and of the machine. -/
def handOn (deliver : Finding → StateT σ (StateM World) Unit) :
    List Finding → σ → World → σ × World
  | [], s, w => (s, w)
  | finding :: findings, s, w =>
    let after := ((deliver finding).run s).run w
    handOn deliver findings after.1.2 after.2

/-- A survey comes to what the files come to, and the findings are handed on in order. -/
theorem Survey.run_ofFiles (context : Context)
    (deliver : Finding → StateT σ (StateM World) Unit)
    (hkeeps : ∀ finding s w, (((deliver finding).run s).run w).2.files = w.files)
    (paths : List Path) (s : σ) (w : World) :
    ((ofFiles (World.host.lift σ) context deliver paths).run s).run w =
      ((w.files.survey context paths, (handOn deliver (w.files.delivered context paths) s w).1),
        (handOn deliver (w.files.delivered context paths) s w).2) := by
  -- The list behind a path is surveyed on the machine that handing the finding on has left;
  -- its files are the same, so the result for the list is about the files of the first one.
  induction paths generalizing s w with
  | nil => rfl
  | cons p paths ih =>
    have hlook := run_ofFile_lift context p s w
    rw [ofFiles]
    cases hfault : w.files.fault? p with
    | some fault =>
      obtain ⟨hsurvey, hdelivered⟩ := Files.survey_cons_faulty context paths hfault
      simp only [hfault] at hlook
      rw [run_bind_keeping hlook, hsurvey, hdelivered]
      rfl
    | none =>
      simp only [hfault] at hlook
      cases hsource : w.files.source? p with
      | none =>
        have hfile := Files.eq_none_of_source?_eq_none hfault hsource
        obtain ⟨hsurvey, hdelivered⟩ := Files.survey_cons_skipped context paths hfile
        rw [hsource] at hlook
        rw [run_bind_keeping hlook, hsurvey, hdelivered]
        simp only [Option.map_none]
        rw [run_bind_keeping (ih s w)]
        rfl
      | some t =>
        obtain ⟨hsurvey, hdelivered⟩ := Files.survey_cons_finding context paths hsource
        rw [hsource] at hlook
        rw [run_bind_keeping hlook, hsurvey, hdelivered]
        simp only [Option.map_some]
        obtain ⟨⟨⟨u, s'⟩, w'⟩, hdeliver⟩ :
            ∃ after, ((deliver (Finding.ofText context p t)).run s).run w = after := ⟨_, rfl⟩
        have hkept : w'.files = w.files := by
          have hsame := hkeeps (Finding.ofText context p t) s w
          rwa [hdeliver] at hsame
        have htail := ih s' w'
        rw [hkept] at htail
        rw [run_bind_keeping hdeliver, run_bind_keeping htail]
        simp only [handOn, hdeliver]
        rfl

/-- A survey that keeps nothing of its own. -/
theorem Survey.run_ofFiles_host (context : Context) (deliver : Finding → StateM World Unit)
    (hkeeps : ∀ finding w, ((deliver finding).run w).2.files = w.files)
    (paths : List Path) (w : World) :
    (ofFiles World.host context deliver paths).run w =
      (w.files.survey context paths,
        (w.files.delivered context paths).foldl
          (fun w finding => ((deliver finding).run w).2) w) := by
  have hfold : ∀ (findings : List Finding) (w : World),
      handOn (fun finding => StateT.lift (deliver finding)) findings () w =
        ((), findings.foldl (fun w finding => ((deliver finding).run w).2) w) := by
    intro findings
    induction findings with
    | nil => intro w; rfl
    | cons finding findings ih => intro w; exact ih _
  have hrun := run_ofFiles context (fun finding => StateT.lift (deliver finding))
    (fun finding _ w => hkeeps finding w) paths () w
  rw [ofFiles_lift, hfold] at hrun
  have hresult := congrArg (fun after : (Except Trouble Survey × Unit) × World =>
    (after.1.1, after.2)) hrun
  exact hresult

/-- A survey on the modelled machine that records its findings one by one. -/
def Survey.scan (context : Context) (record : Finding → σ → σ) (paths : List Path) (s : σ)
    (w : World) : (Except Trouble Survey × σ) × World :=
  ((ofFiles (World.host.lift σ) context (fun finding => modify (record finding)) paths).run
    s).run w

/-- What the findings leave when they are recorded in their order. -/
def recorded (record : Finding → σ → σ) (findings : List Finding) (s : σ) : σ :=
  findings.foldl (fun s finding => record finding s) s

theorem Survey.scan_eq (context : Context) (record : Finding → σ → σ) (paths : List Path)
    (s : σ) (w : World) :
    scan context record paths s w =
      ((w.files.survey context paths, recorded record (w.files.delivered context paths) s),
        w) := by
  have hfold : ∀ (findings : List Finding) (s : σ),
      handOn (fun finding => modify (record finding)) findings s w =
        (recorded record findings s, w) := by
    intro findings
    induction findings with
    | nil => intro s; rfl
    | cons finding findings ih => intro s; exact ih _
  rw [scan, run_ofFiles context _ (fun _ _ _ => rfl), hfold]

end Runs

/-! ## Sound lists, and lists that are not sound -/

namespace Files

/-- The finding is what there is to find in the file that the path names. -/
def Yields (files : Files) (context : Context) (p : Path) (finding : Finding) : Prop :=
  ∃ t, files p = some (.ok (encodeText t)) ∧ finding = Finding.ofText context p t

variable {files : Files} (context : Context)

theorem isSound_congr {files' : Files} {p : Path} (h : files' p = files p) :
    files'.IsSound p ↔ files.IsSound p := by rw [IsSound, h, IsSound]

theorem faulty_congr {files' : Files} {p : Path} {fault : AccessFault} (h : files' p = files p) :
    files'.Faulty p fault ↔ files.Faulty p fault := by
  rw [← fault?_eq_some_iff, ← fault?_eq_some_iff, fault?, h, fault?]

/-- What there is to find depends on the files of the list alone. -/
theorem findings_congr {files' : Files} {paths : List Path}
    (h : ∀ p ∈ paths, files' p = files p) :
    files'.findings context paths = files.findings context paths := by
  refine List.filterMap_congr fun p hp => ?_
  rw [source?, h p hp, source?]

/-- In sound lists each path to a file yields one finding. -/
theorem forall₂_yields {paths : List Path} (h : ∀ p ∈ paths, files.IsSound p) :
    List.Forall₂ (files.Yields context) (paths.filter fun p => (files p).isSome)
      (files.findings context paths) := by
  induction paths with
  | nil => exact .nil
  | cons p paths ih =>
    have htail := ih fun q hq => h q (List.mem_cons_of_mem _ hq)
    cases hfile : files p with
    | none => simpa [findings, source?, hfile] using htail
    | some content =>
      obtain ⟨t, rfl⟩ := h p (List.mem_cons_self ..) content hfile
      have hsource : files.source? p = some t := source?_eq_some_iff.2 hfile
      have hhead : files.Yields context p (Finding.ofText context p t) := ⟨t, hfile, rfl⟩
      simpa [findings, hsource, hfile] using List.Forall₂.cons hhead htail

/-- A survey of sound paths comes to its end. -/
theorem survey_of_sound {paths : List Path} (h : ∀ p ∈ paths, files.IsSound p) :
    files.survey context paths =
        .ok ⟨files.findings context paths, paths.filter fun p => (files p).isNone⟩ ∧
      files.delivered context paths = files.findings context paths := by
  have hnone : ∀ p ∈ paths, files.fault? p = none := fun p hp => fault?_eq_none_iff.2 (h p hp)
  have hend : paths.findSome? files.trouble? = none :=
    List.findSome?_eq_none_iff.2 fun p hp => by rw [trouble?, hnone p hp, Option.map_none]
  constructor
  · rw [survey, hend]
  · rw [delivered, List.takeWhile_eq_self_iff.2 fun p hp => by simp [hnone p hp]]

theorem survey_of_faulty {before : List Path} {bad : Path} {fault : AccessFault}
    (hbefore : ∀ p ∈ before, files.IsSound p) (hbad : files.Faulty bad fault)
    (after : List Path) :
    files.survey context (before ++ bad :: after) = .error (.unreadable .source bad fault) ∧
      files.delivered context (before ++ bad :: after) = files.findings context before := by
  have hfault : files.fault? bad = some fault := fault?_eq_some_iff.2 hbad
  have hnone : ∀ p ∈ before, files.fault? p = none :=
    fun p hp => fault?_eq_none_iff.2 (hbefore p hp)
  constructor
  · have hend : (before ++ bad :: after).findSome? files.trouble? =
        some (.unreadable .source bad fault) :=
      List.findSome?_eq_some_iff.2 ⟨before, bad, after, rfl, by rw [trouble?, hfault]; rfl,
        fun p hp => by rw [trouble?, hnone p hp, Option.map_none]⟩
    rw [survey, hend]
  · have htake : (before ++ bad :: after).takeWhile (fun p => (files.fault? p).isNone) =
        before := by
      rw [List.takeWhile_append_of_pos fun p hp => by simp [hnone p hp]]
      simp [hfault]
    rw [delivered, htake]

/-- A list that is not sound has a first file with something wrong. -/
theorem exists_first_faulty {paths : List Path} (h : ¬ ∀ p ∈ paths, files.IsSound p) :
    ∃ before bad after fault, paths = before ++ bad :: after ∧
      (∀ p ∈ before, files.IsSound p) ∧ files.Faulty bad fault := by
  cases hfind : paths.findSome? files.fault? with
  | none =>
    refine absurd ?_ h
    intro p hp
    exact fault?_eq_none_iff.1 (List.findSome?_eq_none_iff.1 hfind p hp)
  | some fault =>
    obtain ⟨before, bad, after, hsplit, hbad, hbefore⟩ := List.findSome?_eq_some_iff.1 hfind
    exact ⟨before, bad, after, fault, hsplit, fun p hp => fault?_eq_none_iff.1 (hbefore p hp),
      fault?_eq_some_iff.1 hbad⟩

/-- The findings of sound paths and the paths that are skipped make up the list. -/
theorem length_findings_add_skipped {paths : List Path} (h : ∀ p ∈ paths, files.IsSound p) :
    (files.findings context paths).length + (paths.filter fun p => (files p).isNone).length =
      paths.length := by
  have hsplit := List.length_eq_countP_add_countP (fun p => (files p).isSome) (l := paths)
  have hnone : (fun p => decide ¬(files p).isSome = true) = fun p => (files p).isNone := by
    funext p
    cases files p <;> rfl
  rw [hnone, List.countP_eq_length_filter, List.countP_eq_length_filter] at hsplit
  rw [← (forall₂_yields context h).length_eq, hsplit]

end Files

namespace Survey

variable {σ : Type} (context : Context)

/-- A survey that hands its findings to nobody. -/
theorem run_ofFiles_quiet (paths : List Path) (w : World) :
    (ofFiles World.host context (fun _ => pure ()) paths).run w =
      (w.files.survey context paths, w) := by
  rw [run_ofFiles_host context _ (fun _ _ => rfl)]
  congr 1
  exact List.foldl_fixed (w.files.delivered context paths)

variable (record : Finding → σ → σ) (paths behind : List Path) (s : σ) (w : World)

theorem scan_append :
    scan context record (paths ++ behind) s w =
      match scan context record paths s w with
      | ((.error trouble, s'), w') => ((.error trouble, s'), w')
      | ((.ok survey, s'), w') =>
        let rest := scan context record behind s' w'
        ((rest.1.1.map survey.append, rest.1.2), rest.2) := by
  obtain ⟨⟨⟨result, s'⟩, w'⟩, hfront⟩ :
      ∃ after, scan context record paths s w = after := ⟨_, rfl⟩
  rw [hfront, scan, ofFiles_append, run_bind_keeping hfront]
  cases result <;> rfl

/-- A survey takes a list of paths apart without loss: each sound file yields its finding,
in the order of the list, the other paths are skipped, and nothing is handed on twice or
left out. The first file that is garbled or cannot be read ends the survey behind the findings
in front of it. So a list is surveyed part by part, as far as the first failure. -/
theorem ofFiles_partition :
    ((∀ p ∈ paths, w.files.IsSound p) →
      ∃ survey : Survey,
        scan context record paths s w = ((.ok survey, recorded record survey.findings s), w) ∧
        (ofFiles World.host context (fun _ => pure ()) paths).run w = (.ok survey, w) ∧
        List.Forall₂ (w.files.Yields context) (paths.filter fun p => (w.files p).isSome)
          survey.findings ∧
        survey.skipped = paths.filter (fun p => (w.files p).isNone) ∧
        survey.findings.length + survey.skipped.length = paths.length) ∧
    ((¬ ∀ p ∈ paths, w.files.IsSound p) →
      ∃ before bad after fault delivered,
        paths = before ++ bad :: after ∧
        (∀ p ∈ before, w.files.IsSound p) ∧ w.files.Faulty bad fault ∧
        List.Forall₂ (w.files.Yields context) (before.filter fun p => (w.files p).isSome)
          delivered ∧
        scan context record paths s w =
          ((.error (.unreadable .source bad fault), recorded record delivered s), w) ∧
        (ofFiles World.host context (fun _ => pure ()) paths).run w =
          (.error (.unreadable .source bad fault), w)) ∧
    (∀ survey s', scan context record paths s w = ((.ok survey, s'), w) →
      scan context record (paths ++ behind) s w =
        (((scan context record behind s' w).1.1.map survey.append,
          (scan context record behind s' w).1.2), w)) ∧
    (∀ trouble s', scan context record paths s w = ((.error trouble, s'), w) →
      scan context record (paths ++ behind) s w = ((.error trouble, s'), w)) := by
  refine ⟨?_, ?_, ?_, ?_⟩
  · intro hsound
    obtain ⟨hsurvey, hdelivered⟩ := Files.survey_of_sound context hsound
    refine ⟨⟨w.files.findings context paths, paths.filter fun p => (w.files p).isNone⟩,
      ?_, ?_, Files.forall₂_yields context hsound, rfl,
      Files.length_findings_add_skipped context hsound⟩
    · rw [scan_eq, hsurvey, hdelivered]
    · rw [run_ofFiles_quiet, hsurvey]
  · intro hnot
    obtain ⟨before, bad, after, fault, rfl, hbefore, hbad⟩ := Files.exists_first_faulty hnot
    obtain ⟨hsurvey, hdelivered⟩ := Files.survey_of_faulty context hbefore hbad after
    refine ⟨before, bad, after, fault, _, rfl, hbefore, hbad,
      Files.forall₂_yields context hbefore, ?_, ?_⟩
    · rw [scan_eq, hsurvey, hdelivered]
    · rw [run_ofFiles_quiet, hsurvey]
  · intro survey s' hfront
    have hworld : (scan context record behind s' w).2 = w := by rw [scan_eq]
    rw [scan_append, hfront]
    simp only [hworld]
  · intro trouble s' hfront
    rw [scan_append, hfront]

/-- A machine with a file, a directory, a garbled file and one that may not be read. -/
def mixedWorld : World :=
  .quiet ⟨[([.of "One"], .file (encodeText "\"Save\"".toList)),
    ([.of "Many"], .directory), ([.of "Two"], .file ⟨#[0xff]⟩),
    ([.of "Three"], .locked (encodeText "\"Save\"".toList) .denied)]⟩ []

/-- Paths to the file of the mixed machine, twice, and to two things that are no file. -/
def mixedPaths : List Path := [.of "One", .of "Many", .of "None", .of "./One"]

theorem isSound_mixedPaths : ∀ p ∈ mixedPaths, mixedWorld.files.IsSound p := by
  intro p hp
  rw [← Files.fault?_eq_none_iff]
  revert p
  decide +kernel

theorem faulty_three : mixedWorld.files.Faulty (.of "Three") .denied := by
  rw [← Files.fault?_eq_some_iff]
  decide +kernel

/-- The context of the standard settings. -/
def standardContext : Context := Settings.standard.context .standard

/-- A file that may not be read ends a survey, though its bytes are the UTF-8 form of a text. -/
theorem ofFiles_locked :
    mixedWorld.tree.isFile mixedWorld.here (.of "Three") ∧
    mixedWorld.tree.at? [.of "Three"] =
      some (.locked (encodeText "\"Save\"".toList) .denied) ∧
    (ofFiles World.host standardContext (fun _ => pure ()) [.of "Three"]).run mixedWorld =
      (.error (.unreadable .source (.of "Three") .denied), mixedWorld) := by
  refine ⟨by decide +kernel, rfl, ?_⟩
  have hall : ∀ p ∈ ([] : List Path), mixedWorld.files.IsSound p := by simp
  rw [run_ofFiles_quiet]
  exact congrArg (·, mixedWorld) (Files.survey_of_faulty standardContext hall faulty_three []).1

theorem ofFiles_partition_mixedWorld :
    ∃ survey : Survey,
      scan standardContext (fun finding paths => paths ++ [finding.path]) mixedPaths []
        mixedWorld = ((.ok survey, [.of "One", .of "./One"]), mixedWorld) ∧
      survey.skipped = [.of "Many", .of "None"] ∧
      ∀ bad fault, (bad, fault) ∈ [(Path.of "Two", AccessFault.notUtf8), (.of "Three", .denied)] →
        scan standardContext (fun finding paths => paths ++ [finding.path])
          (mixedPaths ++ [bad, .of "One"]) [] mixedWorld =
            ((.error (.unreadable .source bad fault),
              [.of "One", .of "./One"]), mixedWorld) := by
  obtain ⟨hall, -, -, -⟩ :=
    ofFiles_partition standardContext (fun finding paths => paths ++ [finding.path]) mixedPaths
      [] [] mixedWorld
  obtain ⟨survey, hscan, -, hfindings, hskipped, -⟩ := hall isSound_mixedPaths
  have hfiles : mixedPaths.filter (fun p => (mixedWorld.files p).isSome) =
      [.of "One", .of "./One"] := by decide +kernel
  have hrecorded : recorded (fun finding paths => paths ++ [finding.path]) survey.findings [] =
      [.of "One", .of "./One"] := by
    rw [hfiles] at hfindings
    generalize survey.findings = findings at hfindings
    obtain _ | ⟨⟨_, -, rfl⟩, _ | ⟨⟨_, -, rfl⟩, _ | _⟩⟩ := hfindings
    rfl
  rw [hrecorded] at hscan
  refine ⟨survey, hscan, by rw [hskipped]; decide +kernel, ?_⟩
  intro bad fault hmem
  have hboth : ∀ row ∈ [(Path.of "Two", AccessFault.notUtf8), (.of "Three", .denied)],
      mixedWorld.files.fault? row.1 = some row.2 := by decide +kernel
  have hbad : mixedWorld.files.fault? bad = some fault := hboth (bad, fault) hmem
  obtain ⟨-, -, hbehind, -⟩ :=
    ofFiles_partition standardContext (fun finding paths => paths ++ [finding.path]) mixedPaths
      [bad, .of "One"] [] mixedWorld
  obtain ⟨-, hfirst, -, -⟩ :=
    ofFiles_partition standardContext (fun finding paths => paths ++ [finding.path])
      [bad, .of "One"] [] [.of "One", .of "./One"] mixedWorld
  rw [hbehind survey _ hscan]
  have hnot : ¬ mixedWorld.files.IsSound bad := by
    rw [← Files.fault?_eq_none_iff, hbad]
    exact Option.some_ne_none fault
  obtain ⟨before, first, after, fault', delivered, hsplit, hbefore, hfault, hdelivered, hscan',
    -⟩ := hfirst fun h => hnot (h _ (List.mem_cons_self ..))
  cases before with
  | nil =>
    obtain ⟨rfl, rfl⟩ := List.cons.inj hsplit
    cases hdelivered
    cases hbad.symm.trans (Files.fault?_eq_some_iff.2 hfault)
    rw [hscan']
    rfl
  | cons p before =>
    obtain ⟨rfl, -⟩ := List.cons.inj hsplit
    exact absurd (hbefore _ (List.mem_cons_self ..)) hnot

end Survey

end LiteralAudit
