import LiteralAudit.Proofs.Audit.Sources
import LiteralAudit.Proofs.Path

/-!
# The nearest settings file

A search for settings climbs from a directory, step by step. It takes the first settings file
that it comes to and does not go on from a directory that holds the boundary. So it finds the
nearest settings file if it finds any, and what lies beyond the first boundary is nothing to it.
-/

namespace LiteralAudit

open LiteralAudit.Path (parent? rung)

/-- Whether a directory has a settings file. -/
def World.hasSettings (w : World) (directory : Path) : Bool :=
  w.has (Path.join directory Settings.fileName)

/-- Whether a directory is the last that is looked into. -/
def World.isBoundary (w : World) (directory : Path) : Bool :=
  w.has (Path.join directory Settings.boundaryName)

namespace Settings

variable {w w' : World} {start directory : Path} {k : Nat}

/-! ## One step -/

/-- A search is a loop that asks a directory for its two names and then tries to climb. -/
theorem nearestFile?_eq {m : Type → Type} [Monad m] (host : Host m) (start : Path) :
    nearestFile? host start = (do
      if ← host.isPresent (Path.join start fileName) then
        return some (Path.join start fileName)
      else if ← host.isPresent (Path.join start boundaryName) then
        return none
      else
        match parent? start with
        | none => return none
        | some outer => nearestFile? host outer) := by
  rw [nearestFile?, Path.ancestors_eq, firstFile?]
  cases parent? start <;> rfl

/-- A search goes on from a directory only if there is neither a settings file nor a boundary. -/
theorem found?_ancestors (w : World) (start : Path) :
    found? w (Path.ancestors start) =
      if w.hasSettings start then some (Path.join start fileName)
      else if w.isBoundary start then none
      else (parent? start).bind fun outer => found? w (Path.ancestors outer) := by
  rw [Path.ancestors_eq, found?]
  cases parent? start <;> rfl

/-- The directory is the first with a settings file on the way up, and no step before it leads
out of a boundary. -/
structure IsNearest (w : World) (start : Path) (k : Nat) (directory : Path) : Prop where
  reached : rung start k = some directory
  present : w.hasSettings directory
  least : ∀ j < k, ∀ inner, rung start j = some inner → w.hasSettings inner = false
  within : ∀ j < k, ∀ inner, rung start j = some inner → w.isBoundary inner = false

theorem isNearest_zero_iff :
    IsNearest w start 0 directory ↔ directory = start ∧ w.hasSettings start := by
  constructor
  · rintro ⟨hreached, hpresent, -, -⟩
    cases hreached
    exact ⟨rfl, hpresent⟩
  · rintro ⟨rfl, hpresent⟩
    exact ⟨rfl, hpresent, by simp, by simp⟩

/-- What holds on all of a way up holds at its start and on the rest of it. -/
theorem forall_rung_succ_iff {P : Path → Prop} :
    (∀ j < k + 1, ∀ inner, rung start j = some inner → P inner) ↔
      P start ∧ ∀ outer, parent? start = some outer →
        ∀ j < k, ∀ inner, rung outer j = some inner → P inner := by
  constructor
  · intro h
    refine ⟨h 0 (Nat.succ_pos k) start rfl, ?_⟩
    intro outer houter j hj inner hinner
    refine h (j + 1) (Nat.succ_lt_succ hj) inner ?_
    rw [Path.rung_succ, houter]
    exact hinner
  · rintro ⟨hstart, hrest⟩ j hj inner hinner
    cases j with
    | zero =>
      cases hinner
      exact hstart
    | succ j =>
      rw [Path.rung_succ] at hinner
      obtain ⟨outer, houter, hinner⟩ := Option.bind_eq_some_iff.1 hinner
      exact hrest outer houter j (Nat.lt_of_succ_lt_succ hj) inner hinner

theorem isNearest_succ_iff :
    IsNearest w start (k + 1) directory ↔
      (w.hasSettings start = false ∧ w.isBoundary start = false) ∧
        ∃ outer, parent? start = some outer ∧ IsNearest w outer k directory := by
  constructor
  · rintro ⟨hreached, hpresent, hleast, hwithin⟩
    rw [Path.rung_succ] at hreached
    obtain ⟨outer, houter, hreached⟩ := Option.bind_eq_some_iff.1 hreached
    rw [forall_rung_succ_iff] at hleast hwithin
    exact ⟨⟨hleast.1, hwithin.1⟩, outer, houter,
      ⟨hreached, hpresent, hleast.2 outer houter, hwithin.2 outer houter⟩⟩
  · rintro ⟨⟨hsettings, hboundary⟩, outer, houter, hreached, hpresent, hleast, hwithin⟩
    refine ⟨?_, hpresent, ?_, ?_⟩
    · rw [Path.rung_succ, houter]
      exact hreached
    · refine forall_rung_succ_iff.2 ⟨hsettings, ?_⟩
      rintro _ hother
      cases houter.symm.trans hother
      exact hleast
    · refine forall_rung_succ_iff.2 ⟨hboundary, ?_⟩
      rintro _ hother
      cases houter.symm.trans hother
      exact hwithin

/-- Where there are no settings, the nearest ones are beyond, unless there is a boundary. -/
theorem exists_isNearest_iff {P : Path → Prop} (hsettings : w.hasSettings start = false) :
    (∃ k directory, IsNearest w start k directory ∧ P directory) ↔
      w.isBoundary start = false ∧ ∃ outer, parent? start = some outer ∧
        ∃ k directory, IsNearest w outer k directory ∧ P directory := by
  constructor
  · rintro ⟨k, directory, hnearest, hP⟩
    cases k with
    | zero =>
      obtain ⟨-, hpresent⟩ := isNearest_zero_iff.1 hnearest
      rw [hsettings] at hpresent
      cases hpresent
    | succ k =>
      obtain ⟨⟨-, hboundary⟩, outer, houter, hnearest⟩ := isNearest_succ_iff.1 hnearest
      exact ⟨hboundary, outer, houter, k, directory, hnearest, hP⟩
  · rintro ⟨hboundary, outer, houter, k, directory, hnearest, hP⟩
    exact ⟨k + 1, directory,
      isNearest_succ_iff.2 ⟨⟨hsettings, hboundary⟩, outer, houter, hnearest⟩, hP⟩

/-! ## A whole search -/

/-- A search finds a file exactly if it is that of the nearest directory that has one. -/
theorem found?_eq_some_iff {file : Path} :
    found? w (Path.ancestors start) = some file ↔
      ∃ k directory, IsNearest w start k directory ∧ file = Path.join directory fileName := by
  induction start using Path.climb_induction with
  | step start ih =>
    rw [found?_ancestors]
    cases hsettings : w.hasSettings start with
    | true =>
      rw [if_pos rfl]
      constructor
      · rintro ⟨⟩
        exact ⟨0, start, isNearest_zero_iff.2 ⟨rfl, hsettings⟩, rfl⟩
      · rintro ⟨k, directory, hnearest, rfl⟩
        cases k with
        | zero =>
          obtain ⟨rfl, -⟩ := isNearest_zero_iff.1 hnearest
          rfl
        | succ k =>
          obtain ⟨⟨hnone, -⟩, -⟩ := isNearest_succ_iff.1 hnearest
          rw [hsettings] at hnone
          cases hnone
    | false =>
      rw [if_neg Bool.false_ne_true, exists_isNearest_iff hsettings]
      cases w.isBoundary start with
      | true => simp
      | false =>
        rw [if_neg Bool.false_ne_true, Option.bind_eq_some_iff]
        simp only [true_and]
        refine exists_congr fun outer => and_congr_right fun houter => ?_
        exact ih outer houter

/-- Up to a boundary, a search that is told the same comes to the same. -/
theorem found?_eq_of_boundary (hreached : rung start k = some directory)
    (hboundary : w.isBoundary directory)
    (hsame : ∀ j < k + 1, ∀ inner, rung start j = some inner →
      w'.hasSettings inner = w.hasSettings inner ∧ w'.isBoundary inner = w.isBoundary inner) :
    found? w' (Path.ancestors start) = found? w (Path.ancestors start) := by
  induction k generalizing start with
  | zero =>
    obtain ⟨⟨hsettings, hsameBoundary⟩, -⟩ := forall_rung_succ_iff.1 hsame
    cases hreached
    rw [found?_ancestors, found?_ancestors, hsettings, hsameBoundary, hboundary]
    simp
  | succ k ih =>
    obtain ⟨⟨hsettings, hsameBoundary⟩, hrest⟩ := forall_rung_succ_iff.1 hsame
    rw [Path.rung_succ] at hreached
    obtain ⟨outer, houter, hreached⟩ := Option.bind_eq_some_iff.1 hreached
    have houtside := ih hreached (hrest outer houter)
    rw [found?_ancestors, found?_ancestors, hsettings, hsameBoundary, houter, Option.bind_some,
      Option.bind_some, houtside]

/-- A search is a loop that climbs, and as each step makes the path shorter, there are only so many
of them. On the way it finds the settings file of the first directory that has one, provided that
none before it is a boundary, and nothing if there is no such directory. So it finds a settings
file beside the first boundary, and whatever there is beyond it, the search comes to the same. -/
theorem nearestFile?_nearest (w : World) (start : Path) :
    (∀ directory, nearestFile? World.host directory = (do
      if ← World.host.isPresent (Path.join directory fileName) then
        return some (Path.join directory fileName)
      else if ← World.host.isPresent (Path.join directory boundaryName) then
        return none
      else
        match parent? directory with
        | none => return none
        | some outer => nearestFile? World.host outer)) ∧
    (∀ k directory, rung start k = some directory → directory.length + k ≤ start.length) ∧
    ∃ answer, (nearestFile? World.host start).run w = (answer, w) ∧
      (∀ file, answer = some file ↔
        ∃ k directory, IsNearest w start k directory ∧ file = Path.join directory fileName) ∧
      (answer = none ↔ ¬ ∃ k directory, IsNearest w start k directory) ∧
      (∀ k directory, rung start k = some directory → w.isBoundary directory →
        w.hasSettings directory →
        (∀ j < k, ∀ inner, rung start j = some inner →
          w.hasSettings inner = false ∧ w.isBoundary inner = false) →
        answer = some (Path.join directory fileName)) ∧
      ∀ w' k directory, rung start k = some directory → w.isBoundary directory →
        (∀ j < k + 1, ∀ inner, rung start j = some inner →
          w'.hasSettings inner = w.hasSettings inner ∧
            w'.isBoundary inner = w.isBoundary inner) →
        ((nearestFile? World.host start).run w').1 = answer := by
  refine ⟨nearestFile?_eq World.host, fun _ _ => Path.length_add_le_of_rung,
    found? w (Path.ancestors start), run_firstFile? w _, fun _ => found?_eq_some_iff, ?_, ?_, ?_⟩
  · rw [Option.eq_none_iff_forall_ne_some]
    simp only [ne_eq, found?_eq_some_iff]
    constructor
    · rintro hnone ⟨k, directory, hnearest⟩
      exact hnone _ ⟨k, directory, hnearest, rfl⟩
    · rintro hnone file ⟨k, directory, hnearest, -⟩
      exact hnone ⟨k, directory, hnearest⟩
  · intro k directory hreached _ hpresent hbefore
    have hnearest : IsNearest w start k directory :=
      ⟨hreached, hpresent, fun j hj inner hinner => (hbefore j hj inner hinner).1,
        fun j hj inner hinner => (hbefore j hj inner hinner).2⟩
    exact found?_eq_some_iff.2 ⟨k, directory, hnearest, rfl⟩
  · intro w' k directory hreached hboundary hsame
    have hrun : (nearestFile? World.host start).run w' = (found? w' (Path.ancestors start), w') :=
      run_firstFile? w' _
    rw [hrun]
    exact found?_eq_of_boundary hreached hboundary hsame

/-- A directory below the boundary, with pieces that climbing passes over. -/
def innerPath : Path := .of "/top/./app/"

/-- A boundary without a settings file beside it. -/
def boundedWorld : World :=
  .quiet ⟨[([.of "top"], .directory), ([.of "top", boundaryName], .directory)]⟩ []

/-- The same with a settings file above the boundary. -/
def foreignWorld : World :=
  .quiet ⟨([fileName], .file (encodeText ['x'])) :: boundedWorld.tree.rows⟩ []

/-- The same with another one beside the boundary. -/
def besideWorld : World :=
  .quiet ⟨([.of "top", fileName], .file (encodeText ['x'])) :: foreignWorld.tree.rows⟩ []

/-- The settings file beside the boundary is found, and the one above it makes no difference. -/
theorem nearestFile?_nearest_innerPath :
    ((nearestFile? World.host innerPath).run besideWorld).1 =
      some (.of "/top/.i18nauditrc.json") ∧
    ((nearestFile? World.host innerPath).run foreignWorld).1 =
      ((nearestFile? World.host innerPath).run boundedWorld).1 := by
  have hreached : rung innerPath 1 = some (.of "/top") := by decide
  constructor
  · obtain ⟨-, -, answer, hrun, -, -, hbeside, -⟩ := nearestFile?_nearest besideWorld innerPath
    have hbefore : ∀ j < 1, ∀ inner, rung innerPath j = some inner →
        besideWorld.hasSettings inner = false ∧ besideWorld.isBoundary inner = false := by
      intro j hj inner hinner
      obtain rfl := Nat.lt_one_iff.1 hj
      cases hinner
      decide +kernel
    rw [hrun, hbeside 1 _ hreached (by decide +kernel) (by decide +kernel) hbefore]
    decide
  · obtain ⟨-, -, answer, hrun, -, -, -, hsame⟩ := nearestFile?_nearest boundedWorld innerPath
    have halike : ∀ j < 2, ∀ inner, rung innerPath j = some inner →
        foreignWorld.hasSettings inner = boundedWorld.hasSettings inner ∧
          foreignWorld.isBoundary inner = boundedWorld.isBoundary inner := by
      intro j hj inner hinner
      have hj : j = 0 ∨ j = 1 := by omega
      rcases hj with rfl | rfl
      · cases hinner
        decide +kernel
      · cases hreached.symm.trans hinner
        decide +kernel
    rw [hrun]
    exact hsame foreignWorld 1 _ hreached (by decide +kernel) halike

end Settings

end LiteralAudit
