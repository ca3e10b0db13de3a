import MonitorAudit.Archive.Member
import MonitorAudit.Report.UnitReport
import MonitorAudit.Scan.Inputs

/-!
# Scans

`scanInput` answers the reports of one input, `scanInputs` those of all inputs in order. A scan that
fails fast ends with the first report of a failure, and says whether it ended early.
-/

set_option autoImplicit false

namespace MonitorAudit

/-- Why an input as a whole fails. -/
inductive InputFailure where
  | unreadableFile (path : String) (fault : FileFault)
  | unopenedArchive (path : String) (fault : FileFault)
  | unmappedArchive (path : String) (fault : FileFault)
  | malformedArchive (path : String) (fault : Archive.Fault)
  | unknownKind (path : String)
  deriving DecidableEq, Repr

def InputFailure.message : InputFailure → String
  | unreadableFile path fault => s!"Failed to read class file: {path}: {fault.message}"
  | unopenedArchive path fault => s!"Failed to open archive: {path}: {fault.message}"
  | unmappedArchive path fault => s!"Failed to mmap archive: {path}: {fault.message}"
  | malformedArchive path fault => s!"Failed to read zip structure: {path}: {fault.message}"
  | unknownKind path => s!"Unknown file type: {path}"

/-- The report of a class file in an archive. -/
def UnitReport.ofMember (member : Archive.Member) : UnitReport :=
  match member.bytes with
  | .ok bytes => ofBytes member.unit bytes
  | .error fault => failed member.unit none fault.message

/-- The reports of the class file at a path. -/
def classFileReports (path : String) :
    Except FileFault (List UInt8) → Except InputFailure (List UnitReport)
  | .error fault => .error (.unreadableFile path fault)
  | .ok bytes => .ok [UnitReport.ofBytes path bytes]

/-- The reports of the archive at a path. -/
def archiveReports (path : String) :
    Except MappingFault (List UInt8) → Except InputFailure (List UnitReport)
  | .error (.unopened fault) => .error (.unopenedArchive path fault)
  | .error (.unmapped fault) => .error (.unmappedArchive path fault)
  | .ok bytes =>
    match Archive.members path bytes with
    | .error fault => .error (.malformedArchive path fault)
    | .ok members => .ok (members.map UnitReport.ofMember)

/-- The reports up to the first failure, which is the last of them. -/
def throughFirstFailure : List UnitReport → List UnitReport
  | [] => []
  | report :: rest => if report.isFailure then [report] else report :: throughFirstFailure rest

/-- The outcome of a scan. -/
structure ScanOutcome where
  reports : List UnitReport
  /-- Whether a failure ended the scan. -/
  stoppedEarly : Bool
  deriving DecidableEq, Repr

/-- The number of units that failed. -/
def ScanOutcome.failures (outcome : ScanOutcome) : Nat := outcome.reports.countP (·.isFailure)

section Scanning

variable {m : Type → Type} [Monad m]

/-- The reports of an input. -/
def inputReports (access : FileAccess m) (path : String) :
    m (Except InputFailure (List UnitReport)) :=
  match InputKind.ofPath path with
  | .classFile => classFileReports path <$> access.read path
  | .archive => archiveReports path <$> access.map path
  | .unknown => return .error (.unknownKind path)

/-- The reports of an input, up to the first failure if the scan fails fast. An input that fails as
a whole has one report. -/
def scanInput (access : FileAccess m) (failFast : Bool) (path : String) : m (List UnitReport) := do
  match ← inputReports access path with
  | .error failure => return [UnitReport.failed path none failure.message]
  | .ok reports => return if failFast then throughFirstFailure reports else reports

/-- The outcome for all inputs. -/
def scanInputs (access : FileAccess m) (failFast : Bool) : List String → m ScanOutcome
  | [] => return ⟨[], false⟩
  | path :: rest => do
    let reports ← scanInput access failFast path
    if failFast && reports.any (·.isFailure) then return ⟨reports, true⟩
    else
      let outcome ← scanInputs access failFast rest
      return ⟨reports ++ outcome.reports, outcome.stoppedEarly⟩

end Scanning

end MonitorAudit
