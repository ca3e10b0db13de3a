import MonitorAudit.Audit.Finding
import MonitorAudit.Digest.Sha256
import MonitorAudit.Report.Json

/-!
# Reports

A `UnitReport` is the result for one class file, standing alone or inside an archive: its findings,
or the message of its failure. It carries the digest of the bytes, if there were bytes to read.
`UnitReport.ofBytes` audits a unit. A list of reports is written as lines of text, one for each
finding and one for each failure (`textOf`), or as a JSON array with one object for each report
(`jsonOf`).
-/

set_option autoImplicit false

namespace MonitorAudit

/-- What became of a unit. -/
inductive UnitOutcome where
  | scanned (findings : List Finding)
  | failed (message : String)
  deriving DecidableEq, Repr

/-- The result for one class file. -/
structure UnitReport where
  unit : String
  /-- The digest of the bytes of the unit, where they could be read. -/
  sha256? : Option String
  outcome : UnitOutcome
  deriving DecidableEq, Repr

namespace UnitReport

/-- The report of a unit that was scanned. -/
def scanned (unit : String) (bytes : List UInt8) (findings : List Finding) : UnitReport :=
  ⟨unit, some (Sha256.hexDigest bytes), .scanned findings⟩

/-- The report of a unit that failed. -/
def failed (unit : String) (sha256? : Option String) (message : String) : UnitReport :=
  ⟨unit, sha256?, .failed message⟩

/-- Whether the unit failed. -/
def isFailure (report : UnitReport) : Bool :=
  match report.outcome with
  | .scanned _ => false
  | .failed _ => true

/-- The findings of a unit; there are none where it failed. -/
def findings (report : UnitReport) : List Finding :=
  match report.outcome with
  | .scanned findings => findings
  | .failed _ => []

/-- The report of the class file that the bytes of a unit hold. -/
def ofBytes (unit : String) (bytes : List UInt8) : UnitReport :=
  match Audit.auditBytes unit bytes with
  | .ok findings => scanned unit bytes findings
  | .error failure => failed unit (some (Sha256.hexDigest bytes)) failure.message

/-! ### Writing -/

/-- The lines of a report. -/
def lines (report : UnitReport) : List String :=
  match report.outcome with
  | .scanned findings => findings.map Finding.text
  | .failed message => ["ERROR: " ++ message]

/-- The lines of reports, each ended by a line break. -/
def textOf (reports : List UnitReport) : String :=
  String.join ((reports.flatMap lines).map (· ++ "\n"))

end UnitReport

/-- A site as an object with one member. -/
def Site.toJson : Site → Json
  | line number => .object [("line", .number number.toNat)]
  | offset start => .object [("offset", .number start)]

def Finding.toJson : Finding → Json
  | synchronizedMethod className methodName =>
    .object [("kind", .string "synchronized_method"), ("class", .string className),
      ("method", .string methodName)]
  | synchronizedBlock className methodName site =>
    .object [("kind", .string "synchronized_block"), ("class", .string className),
      ("method", .string methodName), ("location", site.toJson)]

/-- The members that say what became of a unit. -/
def UnitOutcome.members : UnitOutcome → List (String × Json)
  | scanned findings =>
    [("status", .string "scanned"), ("findings", .array (findings.map Finding.toJson))]
  | failed message => [("status", .string "failed"), ("error", .string message)]

namespace UnitReport

def toJson (report : UnitReport) : Json :=
  .object (("unit", .string report.unit) ::
    (report.sha256?.toList.map fun digest ↦ ("sha256", .string digest)) ++ report.outcome.members)

/-- The JSON array of reports, ended by a line break. -/
def jsonOf (reports : List UnitReport) : String :=
  (Json.array (reports.map toJson)).text ++ "\n"

end UnitReport

end MonitorAudit
