import MonitorAudit.Command.Options
import MonitorAudit.Scan.Outcome

/-!
# The program

`runProgram` does all that the command does: it reads the arguments and the environment, scans the
inputs and answers what is to be written and the exit code. The code is zero where every unit was
scanned, one where a unit failed, and two where the command was not understood.
-/

set_option autoImplicit false

namespace MonitorAudit

/-- How the program ends. -/
inductive Completion where
  /-- The arguments are no command, or ask for help. -/
  | usage (fault : UsageFault)
  /-- The program ran: its exit code, and the texts for standard output and standard error. -/
  | finished (code : UInt8) (output errors : String)
  deriving DecidableEq, Repr

/-- A line for standard error. -/
def errorLine (message : String) : String := s!"[sync-scanner] {message}\n"

namespace Options

/-- Whether lines about the progress of the scan are written. -/
def writesProgress (options : Options) : Bool := options.format = .text && !options.quiet

/-- What is written to standard output. -/
def output (options : Options) (inputs : List String) (outcome : ScanOutcome) : String :=
  let start := s!"Found {inputs.length} files\nBeginning scan...\n"
  let reports := match options.format with
    | .text => UnitReport.textOf outcome.reports
    | .json => UnitReport.jsonOf outcome.reports
  if options.writesProgress then
    start ++ reports ++ if outcome.stoppedEarly then "" else "Scan complete!\n"
  else reports

/-- What is written to standard error. -/
def errors (options : Options) (outcome : ScanOutcome) : String :=
  if outcome.failures = 0 ∨ options.quiet then ""
  else errorLine s!"{outcome.failures} of {outcome.reports.length} units failed to scan"

end Options

/-- The exit code after a scan. -/
def ScanOutcome.exitCode (outcome : ScanOutcome) : UInt8 := if outcome.failures = 0 then 0 else 1

/-- Runs the program with its arguments and the value of the environment variable, if it is set. -/
def runProgram {m : Type → Type} [Monad m] (access : FileAccess m) (arguments : List String)
    (environment? : Option String) : m Completion := do
  match Options.ofArguments arguments with
  | .error fault => return .usage fault
  | .ok options =>
    match options.workerCount environment? with
    | .error message => return .finished 2 "" (errorLine message)
    | .ok _ =>
      let inputs ← inputsOf access options.paths
      let outcome ← scanInputs access options.failFast inputs
      return .finished outcome.exitCode (options.output inputs outcome) (options.errors outcome)

end MonitorAudit
