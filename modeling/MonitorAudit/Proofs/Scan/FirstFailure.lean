import MonitorAudit.Scan.Outcome

/-!
# Where a scan ends

The outcome of a scan is put together from the reports of its inputs in their order. `gather` does
so when some inputs have no reports, because they were skipped; `scanInputs_eq_gather` says that a
scan of one input after the other is the case without such inputs.

Without failing fast the outcome holds all reports (`gather_all`). Failing fast it holds them
through the first failure, and it does not matter that the reports of an input were cut at its first
failure before (`gather_cut`).
-/

set_option autoImplicit false

namespace MonitorAudit

/-! ### Reports through the first failure -/

section Reports

variable {reports : List UnitReport}

theorem any_isFailure_eq_false (h : ∀ report ∈ reports, report.isFailure = false) :
    reports.any (·.isFailure) = false :=
  List.any_eq_false.mpr fun report hreport ↦ by simp [h report hreport]

theorem throughFirstFailure_of_passed (h : reports.any (·.isFailure) = false) :
    throughFirstFailure reports = reports := by
  induction reports with
  | nil => rfl
  | cons report rest ih =>
    simp only [List.any_cons, Bool.or_eq_false_iff] at h
    simp [throughFirstFailure, h.1, ih h.2]

/-- A failure hides all reports behind it. -/
theorem throughFirstFailure_append_of_failed (h : reports.any (·.isFailure) = true)
    (others : List UnitReport) :
    throughFirstFailure (reports ++ others) = throughFirstFailure reports := by
  induction reports with
  | nil => simp at h
  | cons report rest ih =>
    cases hreport : report.isFailure with
    | true => simp [throughFirstFailure, hreport]
    | false =>
      have hrest : rest.any (·.isFailure) = true := by simpa [hreport] using h
      simp [throughFirstFailure, hreport, ih hrest]

theorem throughFirstFailure_append_of_passed (h : reports.any (·.isFailure) = false)
    (others : List UnitReport) :
    throughFirstFailure (reports ++ others) = reports ++ throughFirstFailure others := by
  induction reports with
  | nil => rfl
  | cons report rest ih =>
    simp only [List.any_cons, Bool.or_eq_false_iff] at h
    simp [throughFirstFailure, h.1, ih h.2]

theorem throughFirstFailure_append_cons {failing : UnitReport}
    (h : reports.any (·.isFailure) = false) (hfailing : failing.isFailure = true)
    (others : List UnitReport) :
    throughFirstFailure (reports ++ failing :: others) = reports ++ [failing] := by
  rw [throughFirstFailure_append_of_passed h]
  simp [throughFirstFailure, hfailing]

@[simp] theorem any_throughFirstFailure (reports : List UnitReport) :
    (throughFirstFailure reports).any (·.isFailure) = reports.any (·.isFailure) := by
  induction reports with
  | nil => rfl
  | cons report rest ih => cases hreport : report.isFailure <;> simp [throughFirstFailure, *]

@[simp] theorem throughFirstFailure_throughFirstFailure (reports : List UnitReport) :
    throughFirstFailure (throughFirstFailure reports) = throughFirstFailure reports := by
  induction reports with
  | nil => rfl
  | cons report rest ih => cases hreport : report.isFailure <;> simp [throughFirstFailure, *]

end Reports

/-! ### Putting outcomes together -/

namespace ScanOutcome

/-- The outcome for inputs of which some have no reports. -/
def gather (failFast : Bool) : List (Option (List UnitReport)) → ScanOutcome
  | [] => ⟨[], false⟩
  | none :: rest => gather failFast rest
  | some reports :: rest =>
    if failFast && reports.any (·.isFailure) then ⟨reports, true⟩
    else ⟨reports ++ (gather failFast rest).reports, (gather failFast rest).stoppedEarly⟩

/-- Without failing fast the outcome holds all reports. -/
theorem gather_all (results : List (List UnitReport)) :
    gather false (results.map some) = ⟨results.flatten, false⟩ := by
  induction results with
  | nil => rfl
  | cons reports rest ih => simp [gather, ih]

/-- Failing fast the outcome holds the reports through the first failure. -/
theorem gather_cut (results : List (List UnitReport)) :
    gather true (results.map fun reports ↦ some (throughFirstFailure reports)) =
      ⟨throughFirstFailure results.flatten, results.flatten.any (·.isFailure)⟩ := by
  induction results with
  | nil => rfl
  | cons reports rest ih =>
    rw [List.map_cons, gather, ih, List.flatten_cons, List.any_append]
    cases hreports : reports.any (·.isFailure) with
    | true => simp [hreports, throughFirstFailure_append_of_failed]
    | false =>
      simp [hreports, throughFirstFailure_of_passed, throughFirstFailure_append_of_passed]

/-- An outcome that ends with the first failure has one failure. -/
theorem failures_append_singleton {front : List UnitReport} {failing : UnitReport}
    (hfront : ∀ report ∈ front, report.isFailure = false) (hfailing : failing.isFailure = true)
    (stoppedEarly : Bool) : (⟨front ++ [failing], stoppedEarly⟩ : ScanOutcome).failures = 1 := by
  have hnone : front.countP (·.isFailure) = 0 :=
    List.countP_eq_zero.mpr fun report hreport ↦ by simp [hfront report hreport]
  simp [failures, hnone, hfailing]

end ScanOutcome

/-! ### Scanning one input after the other -/

/-- An input that fails as a whole has one report, whether or not the scan fails fast. -/
theorem scanInput_eq (access : FileAccess Id) (failFast : Bool) (path : String) :
    (scanInput access failFast path).run =
      match (inputReports access path).run with
      | .error failure => [UnitReport.failed path none failure.message]
      | .ok reports => if failFast then throughFirstFailure reports else reports := rfl

/-- Failing fast the reports of an input are cut at its first failure. -/
theorem scanInput_failFast (access : FileAccess Id) (path : String) :
    (scanInput access true path).run = throughFirstFailure (scanInput access false path).run := by
  rw [scanInput_eq, scanInput_eq]
  cases (inputReports access path).run with
  | error failure => rfl
  | ok reports => rfl

/-- A scan of one input after the other puts the reports of all of them together. -/
theorem scanInputs_eq_gather (access : FileAccess Id) (failFast : Bool) (inputs : List String) :
    (scanInputs access failFast inputs).run =
      .gather failFast (inputs.map fun path ↦ some (scanInput access failFast path).run) := by
  induction inputs with
  | nil => rfl
  | cons path rest ih =>
    rw [List.map_cons, ScanOutcome.gather, ← ih]
    rfl

end MonitorAudit
