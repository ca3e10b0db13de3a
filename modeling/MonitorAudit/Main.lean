import MonitorAudit.Command.Program

/-!
# The command

Runs the program on the files of the machine.
-/

set_option autoImplicit false

namespace MonitorAudit

/-- The number that the system gives an error, and its wording. -/
def systemError : IO.Error → UInt32 × String
  | .noFileOrDirectory _ code details | .permissionDenied _ code details
  | .inappropriateType _ code details | .resourceExhausted _ code details
  | .invalidArgument _ code details | .alreadyExists _ code details
  | .interrupted _ code details | .otherError code details | .hardwareFault code details
  | .unsupportedOperation code details | .resourceBusy code details => (code, details)
  | failure => (5, toString failure)

/-- The fault that an error of the system stands for. Some errors carry their number negated. -/
def FileFault.ofError (failure : IO.Error) : FileFault :=
  let (code, description) := systemError failure
  ofCode code.toInt32.toInt.natAbs description

/-- The names that lead from a directory to each regular file below it. -/
partial def walk (directory : String) : IO (List (List String)) := do
  let mut found := []
  for entry in ← (← IO.FS.realPath directory).readDir do
    match (← entry.path.symlinkMetadata).type with
    | .dir =>
      let below ← walk (Path.join directory entry.fileName)
      found := below.map (entry.fileName :: ·) ++ found
    | .file => found := [entry.fileName] :: found
    | _ => pure ()
  return found

/-- The bytes of a file that has been opened, mapped into memory. -/
def mapOpened (path : String) (file : IO.FS.Handle) : IO (Except MappingFault (List UInt8)) := do
  try
    if ← (← IO.FS.realPath path).isDir then return .error (.unmapped .noSuchDevice)
    else return .ok (← file.readBinToEnd).toList
  catch failure => return .error (.unmapped (FileFault.ofError failure))

/-- Access to the files of the machine. -/
def machineFiles : FileAccess IO where
  isDirectory path := do
    try (← IO.FS.realPath path).isDir
    catch _ => return false
  filesUnder := walk
  read path := do
    try return .ok (← IO.FS.readBinFile path).toList
    catch failure => return .error (FileFault.ofError failure)
  map path := do
    try mapOpened path (← IO.FS.Handle.mk path .read)
    catch failure => return .error (.unopened (FileFault.ofError failure))

/-- What is written where the arguments are no command, or ask for help. -/
def usageText : String :=
  "usage: sync-scanner [--format text|json] [--jobs N] [--fail-fast] [--quiet] PATH...\n"

end MonitorAudit

open MonitorAudit in
def main (arguments : List String) : IO UInt32 := do
  match ← runProgram machineFiles arguments (← IO.getEnv WorkerCount.environmentVariable) with
  | .usage fault =>
    (if fault = .helpRequested then IO.print else IO.eprint) usageText
    return fault.exitCode.toUInt32
  | .finished code output errors =>
    IO.print output
    IO.eprint errors
    return code.toUInt32
