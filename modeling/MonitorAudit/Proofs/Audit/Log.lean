import MonitorAudit.Audit.Finding
import MonitorAudit.Proofs.Bytecode.Assembly
import MonitorAudit.Proofs.ClassFile.Steps

/-!
# What an audit reports

An action of the auditor ends with a result and adds findings behind those that there are; neither
depends on the findings that it starts from (`Reports`). The law is closed under sequencing, so what
a traversal reports is put together from what its steps report: `Audit.foundAt` are the findings of
a step and `Audit.failureAt?` is its failure, if the step fails.

`Audit.auditBytes_of_none` and `Audit.auditBytes_of_some` say that the audit of a class file ends
with the first failure of the steps of its class, and answers the findings of all of them where none
fails.
-/

set_option autoImplicit false

namespace MonitorAudit.Audit

variable {ε φ α : Type}

/-- The action ends with the result, and adds the findings behind those that there are. -/
def Reports (action : ExceptT ε (StateM (Array Finding)) Unit) (result : Except ε Unit)
    (found : List Finding) : Prop :=
  ∀ findings, action.run.run findings = (result, findings ++ found.toArray)

namespace Reports

theorem pure : Reports (Pure.pure () : ExceptT ε (StateM (Array Finding)) Unit) (.ok ()) [] := by
  intro findings
  show (Except.ok (), findings) = _
  rw [Array.append_empty]

theorem throw (fault : ε) :
    Reports (MonadExcept.throw fault : ExceptT ε (StateM (Array Finding)) Unit)
      (.error fault) [] := by
  intro findings
  show (Except.error fault, findings) = _
  rw [Array.append_empty]

theorem report (finding : Finding) : Reports (Audit.report finding) (.ok ()) [finding] := by
  intro findings
  show (Except.ok (), findings.push finding) = _
  rw [Array.push_eq_append]

section Sequences

variable {first second : ExceptT ε (StateM (Array Finding)) Unit} {fault : ε}
  {found more : List Finding} {result : Except ε Unit}

/-- What follows an action that succeeds adds its findings behind those of the action. -/
theorem bind_ok (hfirst : Reports first (.ok ()) found) (hsecond : Reports second result more) :
    Reports (first >>= fun _ ↦ second) result (found ++ more) := by
  intro findings
  show (ExceptT.bindCont (fun _ ↦ second) (first.run.run findings).1).run
    (first.run.run findings).2 = _
  rw [hfirst findings]
  show second.run.run (findings ++ found.toArray) = _
  have hfound : (found ++ more).toArray = found.toArray ++ more.toArray := by simp
  rw [hsecond (findings ++ found.toArray), Array.append_assoc, hfound]

/-- Nothing follows an action that fails. -/
theorem bind_error (hfirst : Reports first (.error fault) found) :
    Reports (first >>= fun _ ↦ second) (.error fault) found := by
  intro findings
  show (ExceptT.bindCont (fun _ ↦ second) (first.run.run findings).1).run
    (first.run.run findings).2 = _
  rw [hfirst findings]
  rfl

/-- A failure is reworded, and the findings stay. -/
theorem adapt (f : ε → φ) (h : Reports first result found) :
    Reports (first.adapt f) (result.mapError f) found := by
  intro findings
  show ((first.run.run findings).1.mapError f, (first.run.run findings).2) = _
  rw [h findings]

end Sequences

/-- Actions that succeed report their findings one behind the other. -/
theorem forM_ok {actions : α → ExceptT ε (StateM (Array Finding)) Unit} {found : α → List Finding}
    {values : List α} (h : ∀ value ∈ values, Reports (actions value) (.ok ()) (found value)) :
    Reports (forM values actions) (.ok ()) (values.flatMap found) := by
  induction values with
  | nil => exact Reports.pure
  | cons value values ih =>
    rw [List.forM_cons, List.flatMap_cons]
    have hvalue := h value List.mem_cons_self
    exact hvalue.bind_ok (ih fun later hlater ↦ h later (List.mem_cons_of_mem value hlater))

/-- Actions end with the first that fails. -/
theorem forM_error {actions : α → ExceptT ε (StateM (Array Finding)) Unit}
    {found : α → List Finding} {before after : List α} {value : α} {fault : ε}
    {last : List Finding}
    (hbefore : ∀ value ∈ before, Reports (actions value) (.ok ()) (found value))
    (hvalue : Reports (actions value) (.error fault) last) :
    Reports (forM (before ++ value :: after) actions) (.error fault)
      (before.flatMap found ++ last) := by
  rw [List.forM_append, List.forM_cons]
  exact (forM_ok hbefore).bind_ok hvalue.bind_error

end Reports

/-! ### Steps -/

/-- The finding of an instruction: a block, if the instruction enters a monitor. -/
def blockAt (context : Context) (instruction : Instruction) : List Finding :=
  if instruction.opcode = Opcode.monitorEnter then
    [.synchronizedBlock context.classFile.name ((context.method?.map (·.name)).getD "")
      (siteOf context instruction.offset)]
  else []

/-- The findings of a step. -/
def foundAt (step : Step) : List Finding :=
  match step.met with
  | .ok (.method member) =>
    if member.isSynchronized then
      [.synchronizedMethod step.context.classFile.name member.name]
    else []
  | .ok (.code body) =>
    match Instruction.decodeAll body.bytes with
    | .ok instructions => instructions.flatMap (blockAt step.context)
    | .error _ => []
  | _ => []

/-- The failure of a step, if it fails: a body that does not decode, or an instruction that does
not. -/
def failureAt? (step : Step) : Option ScanFailure :=
  match step.met with
  | .ok (.code body) =>
    match Instruction.decodeAll body.bytes with
    | .ok _ => none
    | .error fault => some (step.failure (.instruction fault))
  | .ok _ => none
  | .error fault => some (step.failure (.instruction fault))

theorem foundAt_code (context : Context) (body : Code) :
    foundAt ⟨context, .ok (.code body)⟩ =
      match Instruction.decodeAll body.bytes with
      | .ok instructions => instructions.flatMap (blockAt context)
      | .error _ => [] := rfl

theorem failureAt?_code (context : Context) (body : Code) :
    failureAt? ⟨context, .ok (.code body)⟩ =
      match Instruction.decodeAll body.bytes with
      | .ok _ => none
      | .error fault => some (Step.failure ⟨context, .ok (.code body)⟩ (.instruction fault)) := rfl

/-- An instruction reports its block, if it has one. -/
theorem reports_auditItem (context : Context) (instruction : Instruction) :
    Reports (auditItem context (.ok instruction)) (.ok ()) (blockAt context instruction) := by
  unfold auditItem blockAt
  by_cases henters : instruction.opcode = Opcode.monitorEnter
  · simp only [if_pos henters]
    exact Reports.report _
  · simp only [if_neg henters]
    exact Reports.pure

/-- A body that decodes reports the blocks of its instructions. -/
theorem reports_items_of_ok {bytes : List UInt8} {instructions : List Instruction}
    (h : Instruction.decodeAll bytes = .ok instructions) (context : Context) :
    Reports ((Instruction.items bytes).forM (auditItem context)) (.ok ())
      (instructions.flatMap (blockAt context)) := by
  rw [Instruction.decodeAll, Instruction.mapM_id_eq_ok_iff] at h
  rw [h, List.forM_eq_forM, List.forM_map]
  exact Reports.forM_ok fun instruction _ ↦ reports_auditItem context instruction

/-- A body that does not decode ends with its fault. -/
theorem reports_items_of_error {bytes : List UInt8} {fault : InstructionFault}
    (h : Instruction.decodeAll bytes = .error fault) (context : Context) :
    ∃ found, Reports ((Instruction.items bytes).forM (auditItem context))
      (.error (.instruction fault)) found := by
  rw [Instruction.decodeAll] at h
  obtain ⟨instructions, later, hitems⟩ := Instruction.exists_of_mapM_id_eq_error h
  rw [hitems, List.forM_eq_forM, List.forM_append, List.forM_map, List.forM_cons]
  have hfault : Reports (auditItem context (.error fault)) (.error (.instruction fault)) [] :=
    Reports.throw _
  have hbefore : Reports (forM instructions fun instruction ↦ auditItem context (.ok instruction))
      (.ok ()) (instructions.flatMap (blockAt context)) :=
    Reports.forM_ok fun instruction _ ↦ reports_auditItem context instruction
  exact ⟨_, hbefore.bind_ok hfault.bind_error⟩

/-- A step that does not fail reports its findings. -/
theorem reports_perform_of_none {step : Step} (h : failureAt? step = none) :
    Reports (auditor.perform step) (.ok ()) (foundAt step) := by
  have hbare : Reports (auditor.performBare step) (.ok ()) (foundAt step) := by
    obtain ⟨context, met⟩ := step
    cases met with
    | error fault => simp [failureAt?] at h
    | ok event =>
      cases event with
      | code body =>
        cases hdecode : Instruction.decodeAll body.bytes with
        | error fault => simp [failureAt?, hdecode] at h
        | ok instructions =>
          simp only [foundAt, hdecode]
          exact reports_items_of_ok hdecode context
      | method member =>
        show Reports (if member.isSynchronized then _ else _) _
          (if member.isSynchronized then _ else _)
        by_cases hsynchronized : member.isSynchronized = true
        · rw [if_pos hsynchronized, if_pos hsynchronized]
          exact Reports.report _
        · rw [if_neg hsynchronized, if_neg hsynchronized]
          exact Reports.pure
      | _ => exact Reports.pure
  exact hbare.adapt step.failure

/-- A step that fails ends with its failure. -/
theorem reports_perform_of_some {step : Step} {failure : ScanFailure}
    (h : failureAt? step = some failure) :
    ∃ found, Reports (auditor.perform step) (.error failure) found := by
  obtain ⟨context, met⟩ := step
  cases met with
  | error fault =>
    obtain rfl : Step.failure _ _ = failure := by simpa [failureAt?] using h
    exact ⟨[], (Reports.throw _).adapt _⟩
  | ok event =>
    cases event with
    | code body =>
      cases hdecode : Instruction.decodeAll body.bytes with
      | ok instructions => simp [failureAt?, hdecode] at h
      | error fault =>
        obtain rfl : Step.failure _ _ = failure := by simpa [failureAt?, hdecode] using h
        obtain ⟨found, hfound⟩ := reports_items_of_error hdecode context
        exact ⟨found, hfound.adapt _⟩
    | _ => simp [failureAt?] at h

/-- Steps none of which fails report their findings one behind the other. -/
theorem reports_forM_of_none {steps : List Step} (h : steps.findSome? failureAt? = none) :
    Reports (forM steps auditor.perform) (.ok ()) (steps.flatMap foundAt) := by
  rw [List.findSome?_eq_none_iff] at h
  exact Reports.forM_ok fun step hstep ↦ reports_perform_of_none (h step hstep)

/-- Steps end with the first that fails. -/
theorem reports_forM_of_some {steps : List Step} {failure : ScanFailure}
    (h : steps.findSome? failureAt? = some failure) :
    ∃ found, Reports (forM steps auditor.perform) (.error failure) found := by
  obtain ⟨before, step, after, rfl, hstep, hbefore⟩ := List.findSome?_eq_some_iff.mp h
  obtain ⟨last, hlast⟩ := reports_perform_of_some hstep
  have hearlier : ∀ step ∈ before, Reports (auditor.perform step) (.ok ()) (foundAt step) :=
    fun step hstep ↦ reports_perform_of_none (hbefore step hstep)
  exact ⟨_, Reports.forM_error hearlier hlast⟩

/-! ### Classes -/

/-- The findings of a class file are those of the steps of its class, if none of them fails. -/
theorem auditBytes_of_none {unit : String} {bytes : List UInt8} {classFile : ClassFile}
    (hparse : ClassFile.parse unit bytes = .ok classFile)
    (h : (classFile.steps false).findSome? failureAt? = none) :
    auditBytes unit bytes = .ok ((classFile.steps false).flatMap foundAt) := by
  have hclass : auditClass classFile #[] =
      (.ok (), #[] ++ ((classFile.steps false).flatMap foundAt).toArray) := by
    rw [auditClass, auditor.walk_eq_forM_steps (fun _ ↦ rfl)]
    exact reports_forM_of_none h #[]
  rw [auditBytes, hparse]
  simp only [bind, Except.bind, hclass]
  simp [pure, Except.pure]

/-- The audit of a class file ends with the first failure of the steps of its class. -/
theorem auditBytes_of_some {unit : String} {bytes : List UInt8} {classFile : ClassFile}
    {failure : ScanFailure} (hparse : ClassFile.parse unit bytes = .ok classFile)
    (h : (classFile.steps false).findSome? failureAt? = some failure) :
    auditBytes unit bytes = .error failure := by
  obtain ⟨found, hfound⟩ := reports_forM_of_some h
  have hclass : auditClass classFile #[] = (.error failure, #[] ++ found.toArray) := by
    rw [auditClass, auditor.walk_eq_forM_steps (fun _ ↦ rfl)]
    exact hfound #[]
  rw [auditBytes, hparse]
  simp only [bind, Except.bind, hclass]

end MonitorAudit.Audit
