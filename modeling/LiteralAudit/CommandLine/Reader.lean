import LiteralAudit.Audit
import LiteralAudit.CommandLine.Complaint
import LiteralAudit.CommandLine.Similarity

/-!
Reading the command line. Arguments are read from left to right, and the first
one that is wrong ends the reading. The values of an option or a run of paths are
put away when the next argument of another kind comes, or at the end; only then
is it noticed that a value is missing or empty, or that an option was given
before. An argument that is not known is reported at once.

A command is a command only in first place. Behind `--` everything is a path.
-/

namespace LiteralAudit

/-- What the program is asked to do. -/
inductive Task where
  | audit
  /-- Write a settings file to start from. -/
  | initialise
deriving DecidableEq, Repr

structure CommandLine where
  task : Task
  options : Options
deriving DecidableEq, Repr

namespace CommandLine

/-- What a user asks for on a command line, in its own texts. -/
structure Request where
  paths : List Text
  config : Option Text
  mappings : Option Text
  verbose : Bool
deriving DecidableEq, Repr

/-- The same for the audit, to which texts are paths. -/
def Request.options (request : Request) : Options where
  paths := request.paths.map Path.ofText
  config := request.config.map Path.ofText
  mappings := request.mappings.map Path.ofText
  verbose := request.verbose

/-- What was read so far. -/
structure State where
  /-- The arguments that were put away, with their values, in the order in which
  they came first. -/
  stored : List (Slot × List Text)
  /-- The argument that still takes values, with those that it has. -/
  pending : Option (Slot × List Text)
deriving DecidableEq, Repr

namespace State

def initial : State := ⟨[], none⟩

def has (st : State) (slot : Slot) : Bool := st.stored.any fun entry => entry.1 = slot

/-- The values of an argument that was put away. -/
def values (st : State) (slot : Slot) : List Text := (st.stored.lookup slot).getD []

/-- The arguments that were put away. -/
def used (st : State) : List Slot := st.stored.map Prod.fst

/-- Puts away an argument that can be given once. One that was given before is lost
altogether. -/
def store (st : State) (slot : Slot) (values : List Text) : State × Option Complaint :=
  if st.has slot then
    ({ st with stored := st.stored.filter fun entry => entry.1 ≠ slot }, some (.repeated slot))
  else
    ({ st with stored := st.stored ++ [(slot, values)] },
      if [] ∈ values then some (.valueMissing slot) else none)

/-- Puts away paths, behind those that were put away before. -/
def storePaths (st : State) (paths : List Text) : State × Option Complaint :=
  let stored :=
    if st.has .paths then
      st.stored.map fun (slot, values) =>
        if slot = .paths then (slot, values ++ paths) else (slot, values)
    else st.stored ++ [(.paths, paths)]
  ({ st with stored }, if [] ∈ paths then some (.valueMissing .paths) else none)

/-- Puts away the argument that still takes values. -/
def settle (st : State) : State × Option Complaint :=
  match st.pending with
  | none => (st, none)
  | some (slot, values) =>
    let st := { st with pending := none }
    if slot = .paths then st.storePaths values
    else if values.isEmpty then (st, some (.valueMissing slot))
    else st.store slot values

/-- The state, unless there is a complaint. -/
def orComplain : State × Option Complaint → Except Complaint State
  | (_, some complaint) => .error complaint
  | (st, none) => .ok st

/-- Takes an argument as a path. -/
def path (st : State) (argument : Text) : Except Complaint State :=
  match st.pending with
  | some (.paths, paths) => .ok { st with pending := some (.paths, paths ++ [argument]) }
  | _ => do
    let st ← orComplain st.settle
    return { st with pending := some (.paths, [argument]) }

/-- Takes an argument that is not an option: as the value of an option that waits
for one, or else as a path. -/
def plain (st : State) (argument : Text) : Except Complaint State :=
  match st.pending with
  | some (slot, []) => .ok { st with pending := some (slot, [argument]) }
  | _ => st.path argument

/-- Takes an option with its value. -/
def attached (st : State) (slot : Slot) (value : Text) : Except Complaint State := do
  orComplain ((← orComplain st.settle).store slot [value])

/-- Takes an option whose value comes next. -/
def awaiting (st : State) (slot : Slot) : Except Complaint State := do
  let st ← orComplain st.settle
  return { st with pending := some (slot, []) }

/-- Takes a flag. One that asks for a page shows the given one. -/
def flag (st : State) (slot : Slot) (page : Page) : Except Complaint State := do
  let st ← orComplain st.settle
  match slot with
  | .help => .error (.help page)
  | .version => .error .version
  | _ => orComplain (st.store slot [])

/-- The reminder for a flag with a value. Once something was put away, it offers all
arguments of an audit. -/
def usageOf (st : State) (slot : Slot) : Usage :=
  if st.stored.isEmpty then .program [slot] else .choice slot

/-- Takes an argument with two dashes. The variable that names a settings file is
shown in the help. -/
def long (config : Option Text) (st : State) (name : Text) (value : Option Text) :
    Except Complaint State :=
  match Slot.ofLongName? name with
  | some slot =>
    match slot.takesValue, value with
    | true, some value => st.attached slot value
    | true, none => st.awaiting slot
    | false, some value => .error (.valueUnwanted value slot (st.usageOf slot))
    | false, none => st.flag slot (.long config)
  | none =>
    let used := st.settle.1.used
    let argument := "--".toList ++ name
    match Similarity.best? Slot.longName Slot.named name with
    | some slot => .error (.unknownArgument argument (.similar slot) (.program (used ++ [slot])))
    | none => .error (.unknownArgument argument .asPath (.program used))

/-- Takes the letters behind a single dash. The letters behind that of an option are
its value. -/
def short (config : Option Text) (st : State) : Text → Except Complaint State
  | [] => .ok st
  | letter :: rest =>
    match Slot.ofShortName? letter with
    | none => .error (.unknownArgument ['-', letter] .asPath (.program []))
    | some slot =>
      if slot.takesValue then
        match rest with
        | [] => st.awaiting slot
        | '=' :: value => st.attached slot value
        | value => st.attached slot value
      else do
        short config (← st.flag slot (.short config)) rest

end State

/-- The name and the value of a long argument, which stand on either side of the
first equals sign. -/
def splitLong (t : Text) : Text × Option Text :=
  match t.dropWhile (· ≠ '=') with
  | [] => (t, none)
  | _ :: value => (t.takeWhile (· ≠ '='), some value)

/-- Reads the arguments of an audit. -/
def State.readAll (config : Option Text) : State → List Text → Except Complaint State
  | st, [] => State.orComplain st.settle
  | st, argument :: rest =>
    match argument with
    | ['-', '-'] => do
      let st ← rest.foldlM State.path st
      State.orComplain st.settle
    | '-' :: '-' :: t => do
      readAll config (← st.long config (splitLong t).1 (splitLong t).2) rest
    | '-' :: c :: t => do readAll config (← st.short config (c :: t)) rest
    | _ => do readAll config (← st.plain argument) rest

/-- Reads the arguments of the command that writes a settings file. It has no
arguments but its help. -/
def readInit : List Text → Except Complaint Unit
  | [] => .ok ()
  | argument :: rest =>
    match argument with
    | ['-', '-'] =>
      match rest with
      | [] => .ok ()
      | path :: _ => .error (.unknownArgument path .none (.init []))
    | '-' :: '-' :: t =>
      let name := (splitLong t).1
      match (splitLong t).2 with
      | none =>
        if name = Slot.help.longName then .error (.help .init)
        else unknown name
      | some value =>
        if name = Slot.help.longName then
          .error (.valueUnwanted value .help (.init [.help]))
        else unknown name
    | '-' :: c :: _ =>
      if c = 'h' then .error (.help .init)
      else .error (.unknownArgument ['-', c] .none (.init []))
    | _ => .error (.unknownArgument argument .none (.init []))
where
  /-- The complaint about a long argument that is not known. -/
  unknown (name : Text) : Except Complaint Unit :=
    let argument := "--".toList ++ name
    match Similarity.best? Slot.longName [.help] name with
    | some slot => .error (.unknownArgument argument (.similar slot) (.init [slot]))
    | none => .error (.unknownArgument argument .none (.init []))

/-- The answer of the command that explains commands. -/
def readHelp (config : Option Text) : List Text → Complaint
  | [] => .help (.long config)
  | name :: rest =>
    if name = "init".toList then
      match rest with
      | [] => .help .init
      | further :: _ => .unknownCommand further (.init [])
    else if name = "help".toList then
      match rest with
      | [] => .help .help
      | further :: _ => .unknownCommand further .help
    else .unknownCommand name (.program [])

/-- The settings file that the variable names, if none is named on the command
line. -/
def configOr (config : Option Text) (given : Option Text) : Except Complaint (Option Text) :=
  match given, config with
  | some path, _ => .ok (some path)
  | none, some [] => .error (.valueMissing .config)
  | none, config => .ok config

/-- Reads a command line, without the name of the program, with the value of the
variable that names a settings file. -/
def read (config : Option Text) (arguments : List Text) : Except Complaint CommandLine :=
  if arguments.head? = some "init".toList then do
    readInit arguments.tail
    return ⟨.initialise, Request.options ⟨[], ← configOr config none, none, false⟩⟩
  else if arguments.head? = some "help".toList then
    .error (readHelp config arguments.tail)
  else do
    let st ← State.initial.readAll config arguments
    return ⟨.audit, Request.options ⟨st.values .paths,
      ← configOr config (st.values .config).head?, (st.values .mappings).head?,
      st.has .verbose⟩⟩

end CommandLine

end LiteralAudit
