import LiteralAudit.Program

/-!
The command line program on a real machine.
-/

namespace LiteralAudit.Console

/-- The number of a failure, and the words for it; nothing if the system did not report it. -/
def report? : IO.Error → Option (UInt32 × String)
  | .otherError code details | .resourceBusy code details | .resourceVanished code details
  | .unsupportedOperation code details | .hardwareFault code details
  | .unsatisfiedConstraints code details | .illegalOperation code details
  | .protocolError code details | .timeExpired code details
  | .alreadyExists _ code details | .inappropriateType _ code details
  | .invalidArgument _ code details | .permissionDenied _ code details
  | .resourceExhausted _ code details | .noSuchThing _ code details
  | .interrupted _ code details | .noFileOrDirectory _ code details => some (code, details)
  | .unexpectedEof | .userError _ => none

/-- A failed request as the program knows it. -/
def faultOf (error : IO.Error) : AccessFault :=
  match report? error with
  | none => .other error.toString.toList
  | some (code, details) =>
    -- some requests answer with the negated number
    match code.toInt32.toInt.natAbs with
    | 2 => .missing
    | 5 => .inputOutput
    | 13 => .denied
    | 20 => .notDirectory
    | 21 => .isDirectory
    | 36 => .nameTooLong
    | 40 => .tooManyLinks
    | number => .other (details.toList ++ " (os error ".toList ++ Text.ofNat number ++ [')'])

/-- Makes a request of a path. The empty path and a path with a NUL are never passed
on. The other requests take texts, so only paths that are their UTF-8 form are. -/
def ask {α : Type} (p : Path) (request : String → IO α) : IO (Except AccessFault α) := do
  if Path.nul ∈ p then return .error .nulInPath
  else if p = [] then return .error .missing
  else match String.fromUTF8? p.toByteArray with
    | none => return .error (.other "path is not valid UTF-8".toList)
    | some name => try
        return .ok (← request name)
      catch error =>
        return .error (faultOf error)

/-- The requests of the program, answered by the system. -/
def host : Host IO where
  directory := do
    try
      return .ok (.ofText (← IO.currentDir).toString.toList)
    catch error =>
      -- without a number the reason is not known; the directory was most likely removed
      return .error (if (report? error).isSome then faultOf error else .missing)
  isPresent p := return (← ask p fun name => (System.mkFilePath [name]).metadata).toOption.isSome
  isFile p := do
    match ← ask p fun name => (System.mkFilePath [name]).metadata with
    | .ok data => return data.type == .file
    | .error _ => return false
  read p := ask p fun name => IO.FS.readBinFile name
  write p bytes := ask p fun name => IO.FS.writeBinFile name bytes
  keyOrder := return .ascending
  say stream t := do
    let handle ← match stream with
      | .output => IO.getStdout
      | .errors => IO.getStderr
    handle.putStr (String.ofList t)
    handle.flush

end LiteralAudit.Console

open LiteralAudit in
def main (arguments : List String) : IO UInt32 := do
  let lookUp (name : String) : IO (Option Text) := return (← IO.getEnv name).map String.toList
  let env : Program.Environment :=
    ⟨← lookUp (String.ofList CommandLine.configVariable), ← lookUp "CLICOLOR_FORCE",
      ← lookUp "NO_COLOR"⟩
  let code ← Program.launch Console.host env (arguments.map String.toList)
  return code.toUInt32
