import LiteralAudit.Proofs.Audit.Survey
import LiteralAudit.Proofs.Candidate
import LiteralAudit.Proofs.Literal.Search
import Mathlib.Data.List.Flatten

/-!
# Totals that the texts have room for

The literals of a text stand beside one another in it. Candidates are some of these literals, each
once, and each has two quotes and, between them, more characters than the filter drops. So a text
has room for only so many of them, and so have the texts of a survey for all that the survey counts.
A total in words does not overflow while the texts together are not too long for a word themselves.
-/

namespace LiteralAudit

open Literal (interiors ofInterior)

/-! ## One text -/

/-- The literals of a text do not overlap: one after the other they are a part of it. -/
theorem Literal.flatten_literals_sublist (source : Text) :
    ((interiors source).map ofInterior).flatten.Sublist source := by
  induction source using segments_induction with
  | nil => simp
  | literal interior behind hi ih =>
    rw [hi.interiors_ofInterior_append, List.map_cons, List.flatten_cons]
    exact (List.Sublist.refl _).append ih
  | dead rest hdies ih =>
    rw [interiors_quote_of_dies hdies]
    exact ih.cons _
  | other c rest hq ih =>
    rw [interiors_cons_of_ne hq]
    exact ih.cons _

variable {f : Filter} {source literal : Text}

theorem flatten_candidates_sublist (f : Filter) (source : Text) :
    (candidates f source).flatten.Sublist source :=
  (candidates_sublist f source).flatten.trans (Literal.flatten_literals_sublist source)

/-- Two quotes, and at least one character more than the filter drops. -/
theorem minLength_add_three_le_length (h : literal ∈ candidates f source) :
    f.minLength + 3 ≤ literal.length := by
  obtain ⟨interior, -, haccepts, rfl⟩ := mem_candidates_iff.1 h
  have hlength : f.minLength < interior.length := (Filter.accepts_iff.1 haccepts).1
  simp only [ofInterior, List.length_append, List.length_singleton]
  omega

/-- Texts of at least some length, put together. -/
theorem Text.length_mul_le_length_flatten {texts : List Text} {least : Nat}
    (h : ∀ t ∈ texts, least ≤ t.length) : texts.length * least ≤ texts.flatten.length := by
  induction texts with
  | nil => simp
  | cons t texts ih =>
    obtain ⟨hfirst, hrest⟩ := List.forall_mem_cons.1 h
    rw [List.length_cons, Nat.succ_mul, List.flatten_cons, List.length_append, Nat.add_comm]
    exact Nat.add_le_add hfirst (ih hrest)

/-- A text has no more candidates than it has room for. -/
theorem length_candidates_mul_le (f : Filter) (source : Text) :
    (candidates f source).length * (f.minLength + 3) ≤ source.length :=
  calc (candidates f source).length * (f.minLength + 3)
      ≤ (candidates f source).flatten.length :=
        Text.length_mul_le_length_flatten fun _ => minLength_add_three_le_length
    _ ≤ source.length := (flatten_candidates_sublist f source).length_le

namespace Survey

/-! ## Totals in words -/

@[simp] theorem candidateSum_empty : empty.candidateSum = 0 := rfl

@[simp] theorem candidateSum_consFinding (finding : Finding) (survey : Survey) :
    (survey.consFinding finding).candidateSum = finding.candidateCount + survey.candidateSum := rfl

theorem candidateTotal_le_candidateSum (survey : Survey) :
    survey.candidateTotal ≤ survey.candidateSum := Nat.mod_le _ _

/-- A count added to a total in a word; nothing if the new total does not fit. -/
def addInWord? (total count : Nat) : Option Nat :=
  if total + count < totalBound then some (total + count) else none

/-- The candidates of findings, added one count after the other; nothing if a total on the way does
not fit into a word. -/
def totalInWords? (findings : List Finding) : Option Nat :=
  findings.foldlM (fun total finding => addInWord? total finding.candidateCount) 0

/-- Totals only grow, so all of them fit if the last one does. -/
theorem foldlM_addInWord? {total : Nat} (survey : Survey) (h : total < totalBound) :
    survey.findings.foldlM (fun total finding => addInWord? total finding.candidateCount) total =
      if total + survey.candidateSum < totalBound then some (total + survey.candidateSum)
      else none := by
  obtain ⟨findings, skipped⟩ := survey
  induction findings generalizing total with
  | nil => simp [candidateSum, h]
  | cons finding findings ih =>
    have hsum : candidateSum ⟨finding :: findings, skipped⟩ =
        finding.candidateCount + candidateSum ⟨findings, skipped⟩ := rfl
    rw [List.foldlM_cons, hsum, ← Nat.add_assoc, addInWord?]
    -- where one total does not fit, the sum is no smaller
    by_cases hnext : total + finding.candidateCount < totalBound
    · rw [if_pos hnext]
      exact ih hnext
    · rw [if_neg hnext, if_neg (by omega)]
      rfl

/-- No total overflows on the way exactly if the sum fits into a word. -/
theorem totalInWords?_eq_some_iff {survey : Survey} {total : Nat} :
    totalInWords? survey.findings = some total ↔
      survey.candidateSum < totalBound ∧ survey.candidateSum = total := by
  rw [totalInWords?, foldlM_addInWord? survey (by decide), Nat.zero_add]
  split <;> simp_all

/-! ## The texts of a survey -/

section

variable {σ : Type} {context : Context} {deliver : Finding → StateT σ (StateM World) Unit}

/-- The texts that a survey reads, and what it comes to. A file is read when its path is looked at,
after everything before it was handed on. A file that is named twice is read twice. -/
inductive Reads (context : Context) (deliver : Finding → StateT σ (StateM World) Unit) :
    List Path → σ → World → List Text → Survey → Prop
  | done {s : σ} {w : World} : Reads context deliver [] s w [] empty
  | skipped {p : Path} {paths : List Path} {s : σ} {w : World} {sources : List Text}
      {survey : Survey} (hfile : w.files p = none)
      (hrest : Reads context deliver paths s w sources survey) :
      Reads context deliver (p :: paths) s w sources (survey.consSkipped p)
  | found {p : Path} {paths : List Path} {s s' : σ} {w w' : World} {t : Text}
      {sources : List Text} {survey : Survey} (hfile : w.files p = some (.ok (encodeText t)))
      (hdeliver : ((deliver (.ofText context p t)).run s).run w = (((), s'), w'))
      (hrest : Reads context deliver paths s' w' sources survey) :
      Reads context deliver (p :: paths) s w (t :: sources)
        (survey.consFinding (.ofText context p t))

/-- A survey with something put in front of it succeeds only if the survey itself does. -/
theorem exists_of_run_map_eq_ok {front : Survey → Survey} {paths : List Path} {s s' : σ}
    {w w' : World} {survey : Survey}
    (h : ((do return (← ofFiles (World.host.lift σ) context deliver paths).map front).run
      s).run w = ((.ok survey, s'), w')) :
    ∃ rest, ((ofFiles (World.host.lift σ) context deliver paths).run s).run w =
      ((.ok rest, s'), w') ∧ front rest = survey := by
  obtain ⟨⟨⟨result, t⟩, v⟩, hrest⟩ :
      ∃ after, ((ofFiles (World.host.lift σ) context deliver paths).run s).run w = after :=
    ⟨_, rfl⟩
  rw [run_bind_keeping hrest] at h
  cases result with
  | error trouble => cases h
  | ok rest =>
    cases h
    exact ⟨rest, hrest, rfl⟩

/-- A survey that succeeds has read its texts. -/
theorem exists_reads {paths : List Path} {s s' : σ} {w w' : World} {survey : Survey}
    (h : ((ofFiles (World.host.lift σ) context deliver paths).run s).run w =
      ((.ok survey, s'), w')) :
    ∃ sources, Reads context deliver paths s w sources survey := by
  induction paths generalizing s w survey with
  | nil =>
    cases h
    exact ⟨[], .done⟩
  | cons p paths ih =>
    rw [ofFiles, run_bind_keeping (run_ofFile_lift context p s w)] at h
    cases hfault : w.files.fault? p with
    | some fault =>
      rw [hfault] at h
      cases h
    | none =>
      rw [hfault] at h
      cases hsource : w.files.source? p with
      | none =>
        rw [hsource] at h
        obtain ⟨rest, hrest, rfl⟩ := exists_of_run_map_eq_ok h
        obtain ⟨sources, hreads⟩ := ih hrest
        exact ⟨sources, .skipped (Files.eq_none_of_source?_eq_none hfault hsource) hreads⟩
      | some t =>
        rw [hsource] at h
        -- the rest is read on the machine that is left when the finding was handed on
        obtain ⟨⟨⟨u, s₁⟩, w₁⟩, hdeliver⟩ :
            ∃ after, ((deliver (Finding.ofText context p t)).run s).run w = after := ⟨_, rfl⟩
        have hbehind := (run_bind_keeping hdeliver _).symm.trans h
        obtain ⟨rest, hrest, rfl⟩ := exists_of_run_map_eq_ok hbehind
        obtain ⟨sources, hreads⟩ := ih hrest
        exact ⟨t :: sources, .found (Files.source?_eq_some_iff.1 hsource) hdeliver hreads⟩

variable {paths : List Path} {s : σ} {w : World} {sources : List Text} {survey : Survey}

/-- The counts of a survey have room in its texts. -/
theorem Reads.candidateSum_mul_le (h : Reads context deliver paths s w sources survey) :
    survey.candidateSum * (context.filter.minLength + 3) ≤ sources.flatten.length := by
  induction h with
  | done => simp
  | skipped _ _ ih => exact ih
  | @found p _ _ _ _ _ t _ _ _ _ _ ih =>
    have hcount := length_candidates_mul_le context.filter t
    rw [candidateSum_consFinding, Nat.add_mul, List.flatten_cons, List.length_append]
    exact Nat.add_le_add hcount ih

/-- If the files stay as they are, those that are read are the files of the list. -/
theorem Reads.forall₂_files (h : Reads context deliver paths s w sources survey)
    (hkeeps : ∀ finding s w, (((deliver finding).run s).run w).2.files = w.files) :
    List.Forall₂ (fun p t => w.files p = some (.ok (encodeText t)))
      (paths.filter fun p => (w.files p).isSome) sources := by
  induction h with
  | done => exact .nil
  | skipped hfile _ ih => simpa [hfile] using ih
  | @found p paths s s' w w' t _ _ hfile hdeliver _ ih =>
    have hkept : w'.files = w.files := by
      have hsame := hkeeps (Finding.ofText context p t) s w
      rwa [hdeliver] at hsame
    rw [hkept] at ih
    simpa [hfile] using ih

end

/-- A text has room for all of its candidates, each with two quotes and one character more than the
filter drops. A survey that succeeds has read a text for each of its findings; if whoever takes the
findings leaves the files alone, these are the texts of the files in the list, one for each time
that a file is named. Together they have room for all candidates of the survey, so three times the
total is at most their length. If that fits into a word, no total overflows while the counts are
added up, and the last one is exact. -/
theorem ofFiles_bounded {σ : Type} (context : Context) :
    (∀ path source,
      (Finding.ofText context path source).candidateCount * (context.filter.minLength + 3) ≤
        source.length) ∧
    ∀ (deliver : Finding → StateT σ (StateM World) Unit) (paths : List Path) (s s' : σ)
      (w w' : World) (survey : Survey),
      ((ofFiles (World.host.lift σ) context deliver paths).run s).run w =
        ((.ok survey, s'), w') →
      ∃ sources,
        Reads context deliver paths s w sources survey ∧
        ((∀ finding s w, (((deliver finding).run s).run w).2.files = w.files) →
          List.Forall₂ (fun p t => w.files p = some (.ok (encodeText t)))
            (paths.filter fun p => (w.files p).isSome) sources) ∧
        survey.candidateSum * (context.filter.minLength + 3) ≤ sources.flatten.length ∧
        survey.candidateTotal * 3 ≤ sources.flatten.length ∧
        (sources.flatten.length < totalBound →
          totalInWords? survey.findings = some survey.candidateTotal ∧
          survey.candidateTotal = survey.candidateSum) := by
  refine ⟨fun _ source => length_candidates_mul_le context.filter source, ?_⟩
  intro deliver paths s s' w w' survey hrun
  obtain ⟨sources, hreads⟩ := exists_reads hrun
  have hsum := hreads.candidateSum_mul_le
  have hthree : survey.candidateSum * 3 ≤ sources.flatten.length :=
    (Nat.mul_le_mul_left _ (Nat.le_add_left 3 _)).trans hsum
  have htotal : survey.candidateTotal * 3 ≤ sources.flatten.length :=
    (Nat.mul_le_mul_right 3 survey.candidateTotal_le_candidateSum).trans hthree
  refine ⟨sources, hreads, hreads.forall₂_files, hsum, htotal, ?_⟩
  intro hfits
  have hword : survey.candidateSum < totalBound := by omega
  have hexact := candidateTotal_eq_candidateSum hword
  exact ⟨totalInWords?_eq_some_iff.2 ⟨hword, hexact.symm⟩, hexact⟩

/-- A text with no character to spare: two candidates of the least length. -/
def packedSource : Text := "\"Yes\"\"Now\"".toList

/-- A machine with a file of that text and a directory. -/
def packedWorld : World :=
  .quiet ⟨[([.of "One"], .file (encodeText packedSource)), ([.of "Many"], .directory)]⟩ []

/-- The file, twice, and the directory between. -/
def packedPaths : List Path := [.of "One", .of "Many", .of "./One"]

/-- Both texts are full: four candidates of five characters each in twenty characters. -/
theorem ofFiles_bounded_packedWorld :
    (Finding.ofText standardContext [] packedSource).candidateCount * 5 ≤ packedSource.length ∧
    packedSource.length = 10 ∧
    ∃ survey : Survey,
      ((ofFiles (World.host.lift (List Path)) standardContext
        (fun finding => modify (· ++ [finding.path])) packedPaths).run []).run packedWorld =
          ((.ok survey, [.of "One", .of "./One"]), packedWorld) ∧
      survey.candidateSum * 5 = 20 ∧ survey.candidateTotal * 3 ≤ 20 ∧
      totalInWords? survey.findings = some 4 := by
  obtain ⟨htext, hscan⟩ := @ofFiles_bounded (List Path) standardContext
  have hsound : ∀ p ∈ packedPaths, packedWorld.files.IsSound p := by
    intro p hp
    rw [← Files.fault?_eq_none_iff]
    revert p
    decide +kernel
  obtain ⟨hsurvey, hdelivered⟩ := Files.survey_of_sound standardContext hsound
  have hpaths : recorded (fun finding paths => paths ++ [finding.path])
      (packedWorld.files.findings standardContext packedPaths) [] =
        [.of "One", .of "./One"] := by
    decide +kernel
  have hrun := scan_eq standardContext (fun finding paths => paths ++ [finding.path]) packedPaths
    [] packedWorld
  rw [hsurvey, hdelivered, hpaths] at hrun
  obtain ⟨sources, -, hfiles, -, htotal, hword⟩ := hscan _ _ _ _ _ _ _ hrun
  have hlisted : packedPaths.filter (fun p => (packedWorld.files p).isSome) =
      [.of "One", .of "./One"] := by
    decide +kernel
  have hsource : ∀ p ∈ [.of "One", .of "./One"], ∀ t,
      packedWorld.files p = some (.ok (encodeText t)) → t = packedSource := by
    have hread : ∀ p ∈ [.of "One", .of "./One"],
        packedWorld.files.source? p = some packedSource := by
      decide +kernel
    intro p hp t ht
    exact Option.some.inj ((Files.source?_eq_some_iff.2 ht).symm.trans (hread p hp))
  have hsources : sources = [packedSource, packedSource] := by
    have hboth := hfiles fun _ _ _ => rfl
    rw [hlisted] at hboth
    obtain _ | ⟨ht, _ | ⟨ht', _ | _⟩⟩ := hboth
    rw [hsource _ (by simp) _ ht, hsource _ (by simp) _ ht']
  have hlength : sources.flatten.length = 20 := by
    rw [hsources]
    decide
  rw [hlength] at htotal hword
  refine ⟨htext [] packedSource, by decide, _, hrun, by decide +kernel, htotal, ?_⟩
  rw [(hword (by decide)).1]
  decide +kernel

end Survey

end LiteralAudit
