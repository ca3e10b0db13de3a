import MonitorAudit.Proofs.Audit.Log

/-!
# Audits one behind the other

Class files may be audited one behind the other with one list of findings (`Audit.auditSource`). An
audit looks at none of the findings that it starts from: it ends as it would from an empty list, and
puts its own findings behind those that there are, whether or not it fails (`auditClass_eq`). So a
run of audits is settled by what each class file contributes by itself (`Source.contribution`), and
`audits_share_only_findings` puts together what follows for runs of any length.
-/

set_option autoImplicit false

namespace MonitorAudit.Audit

/-- A class file that is to be audited: the name of its unit, and its bytes. -/
structure Source where
  unit : String
  bytes : List UInt8
  deriving DecidableEq, Repr

/-- Audits a class file behind the findings that there are. The findings of an audit that fails
stay, and bytes that are no class file add none. -/
def auditSource (findings : Array Finding) (source : Source) :
    Except ScanFailure Unit × Array Finding :=
  match ClassFile.parse source.unit source.bytes with
  | .error failure => (.error failure, findings)
  | .ok classFile => auditClass classFile findings

/-- The findings that there are behind those given when a class file has been audited. -/
def findingsAfter (findings : Array Finding) (source : Source) : Array Finding :=
  (auditSource findings source).2

/-- The findings that a class file adds by itself. -/
def Source.contribution (source : Source) : List Finding := (findingsAfter #[] source).toList

/-! ### One audit -/

/-- Whether or not the audit of a class fails, it reports findings. -/
theorem exists_reports_walk (classFile : ClassFile) :
    ∃ result found, Reports (auditor.walk classFile) result found := by
  rw [auditor.walk_eq_forM_steps (fun _ ↦ rfl)]
  cases hfirst : (classFile.steps false).findSome? failureAt? with
  | none => exact ⟨_, _, reports_forM_of_none hfirst⟩
  | some failure =>
    obtain ⟨found, hfound⟩ := reports_forM_of_some hfirst
    exact ⟨_, found, hfound⟩

/-- The audit of a class ends as it does from no findings, and adds what it finds there. -/
theorem auditClass_eq (classFile : ClassFile) (findings : Array Finding) :
    auditClass classFile findings =
      ((auditClass classFile #[]).1, findings ++ (auditClass classFile #[]).2) := by
  obtain ⟨result, found, hreports⟩ := exists_reports_walk classFile
  unfold auditClass
  rw [hreports findings, hreports #[], Array.empty_append]

theorem auditSource_eq (findings : Array Finding) (source : Source) :
    auditSource findings source =
      ((auditSource #[] source).1, findings ++ source.contribution.toArray) := by
  unfold Source.contribution findingsAfter auditSource
  cases ClassFile.parse source.unit source.bytes with
  | error failure => simp
  | ok classFile =>
    simp only [Array.toArray_toList]
    exact auditClass_eq classFile findings

theorem findingsAfter_eq (findings : Array Finding) (source : Source) :
    findingsAfter findings source = findings ++ source.contribution.toArray :=
  congrArg Prod.snd (auditSource_eq findings source)

/-- The findings of a class file are its contribution, if its audit does not fail. -/
theorem auditBytes_eq_contribution (source : Source) :
    auditBytes source.unit source.bytes =
      (auditSource #[] source).1.map fun _ ↦ source.contribution := by
  unfold auditBytes Source.contribution findingsAfter auditSource
  cases ClassFile.parse source.unit source.bytes with
  | error failure => rfl
  | ok classFile =>
    simp only [bind, Except.bind]
    cases (auditClass classFile #[]).1 with
    | error failure => rfl
    | ok _ => rfl

/-! ### Audits in a row -/

/-- The findings that there are behind those given when class files have been audited in a row. -/
def findingsAfterAll (findings : Array Finding) (sources : List Source) : Array Finding :=
  sources.foldl findingsAfter findings

/-- A run of audits adds the contributions of its class files in their order. -/
theorem findingsAfterAll_eq (findings : Array Finding) (sources : List Source) :
    findingsAfterAll findings sources =
      findings ++ (sources.flatMap Source.contribution).toArray := by
  unfold findingsAfterAll
  induction sources generalizing findings with
  | nil => simp
  | cons source sources ih =>
    have hboth : (source.contribution ++ sources.flatMap Source.contribution).toArray =
        source.contribution.toArray ++ (sources.flatMap Source.contribution).toArray := by simp
    rw [List.foldl_cons, ih, findingsAfter_eq, List.flatMap_cons, hboth, Array.append_assoc]

/-- What is audited later leaves the findings in front of its own as they are. -/
theorem findingsAfterAll_append (findings : Array Finding) (earlier later : List Source) :
    (findingsAfterAll findings earlier).toList <+:
      (findingsAfterAll findings (earlier ++ later)).toList := by
  have hrun : findingsAfterAll findings (earlier ++ later) =
      findingsAfterAll (findingsAfterAll findings earlier) later := List.foldl_append
  rw [hrun, findingsAfterAll_eq _ later, Array.toList_append]
  exact List.prefix_append _ _

/-- Audits that use one list of findings share nothing else. The audit of a class ends as it does
from no findings and leaves what it finds there behind the findings that there were, also if it
fails midway. So in a run of audits each ends as it does by itself, at the end there are the
contributions of all class files in their order, and the findings at any point of the run begin the
findings at every later point. The contribution of a class file is what its own audit answers, if
that does not fail. -/
theorem audits_share_only_findings :
    (∀ classFile findings, auditClass classFile findings =
      ((auditClass classFile #[]).1, findings ++ (auditClass classFile #[]).2)) ∧
    (∀ findings source, auditSource findings source =
      ((auditSource #[] source).1, findings ++ source.contribution.toArray)) ∧
    (∀ findings sources, findingsAfterAll findings sources =
      findings ++ (sources.flatMap Source.contribution).toArray) ∧
    (∀ findings earlier later, (findingsAfterAll findings earlier).toList <+:
      (findingsAfterAll findings (earlier ++ later)).toList) ∧
    ∀ source : Source, auditBytes source.unit source.bytes =
      (auditSource #[] source).1.map fun _ ↦ source.contribution := by
  refine ⟨?_, ?_, ?_, ?_, ?_⟩
  · intro classFile findings
    exact auditClass_eq classFile findings
  · intro findings source
    exact auditSource_eq findings source
  · intro findings sources
    exact findingsAfterAll_eq findings sources
  · intro findings earlier later
    exact findingsAfterAll_append findings earlier later
  · intro source
    exact auditBytes_eq_contribution source

end MonitorAudit.Audit
