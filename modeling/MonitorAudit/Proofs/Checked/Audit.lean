import MonitorAudit.Audit.Finding
import MonitorAudit.Proofs.Checked.ClassFile
import MonitorAudit.Proofs.Checked.Instruction
import MonitorAudit.Proofs.ClassFile.Bodies
import MonitorAudit.Proofs.ClassFile.Steps

/-!
# Audits with machine arithmetic

The audit of a class adds one finding after the other to a list, and a failed operation loses the
list. `Keeps` says that an action that may lose its state does not, and ends as another does that
cannot; the law is closed under sequencing, so that it holds of a traversal if it holds of its
steps.

Three facts about a parsed class carry it. Its bodies of code are shorter than `2 ^ 32` bytes, since
their length is a number of 32 bits (`ClassFile.length_bytes_lt`), so their instructions are read
without a failed operation. The bodies that a traversal meets are those of the class
(`ClassFile.mem_bodies_of_mem_steps`). And a line table is only looked into at the row in front of
one that it has (`LineNumberTable.checkedLineFor?_eq`).
-/

set_option autoImplicit false

namespace MonitorAudit

/-! ### Source lines -/

/-- The line of the last row at or before an offset. The rows are counted up to the first that is
behind the offset, and the one in front of it is looked up. -/
def LineNumberTable.checkedLineFor? (table : LineNumberTable) (offset : Nat) :
    Option (Option UInt16) :=
  match sub? (table.rows.takeWhile fun row ↦ row.startPc.toNat ≤ offset).length 1 with
  | none => some none
  | some last => table.rows[last]?.map fun row ↦ some row.line

theorem LineNumberTable.checkedLineFor?_eq (table : LineNumberTable) (offset : Nat) :
    table.checkedLineFor? offset = some (table.lineFor? offset) := by
  rw [checkedLineFor?, lineFor?]
  have hrows := List.takeWhile_append_dropWhile (p := fun row ↦ decide (row.startPc.toNat ≤ offset))
    (l := table.rows)
  generalize table.rows.takeWhile _ = front at hrows ⊢
  rcases List.eq_nil_or_concat' front with rfl | ⟨earlier, row, rfl⟩
  · rfl
  · have hlast : sub? (earlier ++ [row]).length 1 = some earlier.length := by
      rw [List.length_append, List.length_singleton, sub?_of_le (Nat.le_add_left 1 _),
        Nat.add_sub_cancel]
    rw [hlast, ← hrows, List.getLast?_concat]
    simp

/-! ### Bodies of a parsed class -/

/-- The code of a body is as long as a number of 32 bits says. -/
theorem BodyBytes.length_bytes_lt {pool : ConstantPool} {payload : List UInt8} {body : Code}
    (h : BodyBytes pool payload body) : body.bytes.length < 2 ^ 32 := by
  cases h with
  | @intro _ _ length _ _ _ _ _ length_eq =>
    rw [length_eq]
    exact length.toNat_lt

/-- So is the code of each body of a parsed class. -/
theorem ClassFile.length_bytes_lt {unit : String} {bytes : List UInt8} {classFile : ClassFile}
    (h : parse unit bytes = .ok classFile) :
    ∀ body ∈ classFile.bodies, body.bytes.length < 2 ^ 32 := by
  intro body hbody
  obtain ⟨payload, hpayload⟩ := exists_bodyBytes_of_parse h body hbody
  exact hpayload.length_bytes_lt

/-- A step of an attribute that is no body is one of a record. -/
theorem Attribute.exists_met_eq_record {value : Attribute} (h : ∀ body, value ≠ .code body)
    {wants : Bool} {context : Context} {step : Step} (hstep : step ∈ value.steps wants context) :
    ∃ record, step.met = .ok (.record record) := by
  obtain ⟨record, hevent, -⟩ := exists_event_eq_record h
  rw [steps_of_ne_code h, List.mem_singleton, hevent] at hstep
  exact ⟨record, by rw [hstep]⟩

/-- The bodies that a traversal of attributes meets are among them, if no body is inside another. -/
theorem Attribute.mem_bodiesOf_of_mem_stepsOfAll {attributes : List Attribute}
    (hflat : AreFlat attributes) {context : Context} {step : Step}
    (hstep : step ∈ stepsOfAll false context attributes) {body : Code}
    (hbody : step.met = .ok (.code body)) : body ∈ bodiesOf attributes := by
  rw [stepsOfAll_eq_flatMap] at hstep
  obtain ⟨value, hvalue, hstep⟩ := List.mem_flatMap.mp hstep
  rw [mem_bodiesOf]
  cases hfound : value.body? with
  | none =>
    obtain ⟨record, hmet⟩ := exists_met_eq_record (ne_code_of_body?_eq_none hfound) hstep
    cases hmet.symm.trans hbody
  | some found =>
    obtain rfl := (body?_eq_some_iff value found).mp hfound
    rw [steps, Code.steps_eq, List.mem_cons] at hstep
    rcases hstep with rfl | hinside
    · cases hbody
      exact hvalue
    · obtain ⟨inner, hinner, hstep⟩ := List.mem_flatMap.mp hinside
      have hcode : ∀ body, inner ≠ .code body := by
        rintro body rfl
        rw [← mem_bodiesOf, hflat.bodiesOf_eq_nil hvalue] at hinner
        cases hinner
      obtain ⟨record, hmet⟩ := exists_met_eq_record hcode hstep
      cases hmet.symm.trans hbody

/-- The bodies that a traversal of a class meets are those of the class, if no body is inside
another. -/
theorem ClassFile.mem_bodies_of_mem_steps {classFile : ClassFile} (hflat : classFile.IsFlat)
    {step : Step} (hstep : step ∈ classFile.steps false) {body : Code}
    (hbody : step.met = .ok (.code body)) : body ∈ classFile.bodies := by
  rw [steps, List.mem_cons, List.mem_append, List.mem_append, List.mem_flatMap,
    List.mem_flatMap] at hstep
  rcases hstep with rfl | ⟨field, hfield, hstep⟩ | ⟨method, hmethod, hstep⟩ | hstep
  · cases hbody
  · rw [Member.stepsOfField, List.mem_cons] at hstep
    rcases hstep with rfl | hstep
    · cases hbody
    · exact mem_bodies_of_field hfield
        (Attribute.mem_bodiesOf_of_mem_stepsOfAll (hflat.fields field hfield) hstep hbody)
  · rw [Member.stepsOfMethod, List.mem_cons] at hstep
    rcases hstep with rfl | hstep
    · cases hbody
    · exact mem_bodies_of_method hmethod
        (Attribute.mem_bodiesOf_of_mem_stepsOfAll (hflat.methods method hmethod) hstep hbody)
  · exact mem_bodies_of_attribute
      (Attribute.mem_bodiesOf_of_mem_stepsOfAll hflat.attributes hstep hbody)

/-! ### States that a failed operation loses -/

namespace Audit

variable {σ ε φ α β : Type}

/-- From a state that is there, the action ends as the other does, and keeps a state. -/
def Keeps (action : ExceptT ε (StateM (Option σ)) α) (other : ExceptT ε (StateM σ) α) : Prop :=
  ∀ state, action.run.run (some state) =
    ((other.run.run state).1, some (other.run.run state).2)

/-- Goes on with a value, if the operation that should have it did not fail. -/
def orLose (value : Option α) (next : α → Visit (Option σ) Unit) : Visit (Option σ) Unit :=
  match value with
  | some value => next value
  | none => set (none : Option σ)

namespace Keeps

theorem pure (value : α) :
    Keeps (Pure.pure value : ExceptT ε (StateM (Option σ)) α) (Pure.pure value) :=
  fun _ ↦ rfl

theorem throw (fault : ε) :
    Keeps (MonadExcept.throw fault : ExceptT ε (StateM (Option σ)) α) (MonadExcept.throw fault) :=
  fun _ ↦ rfl

theorem of_modify (f : σ → σ) :
    Keeps (modify (Option.map f) : ExceptT ε (StateM (Option σ)) Unit) (modify f) :=
  fun _ ↦ rfl

theorem bind {first : ExceptT ε (StateM (Option σ)) α} {first' : ExceptT ε (StateM σ) α}
    {next : α → ExceptT ε (StateM (Option σ)) β} {next' : α → ExceptT ε (StateM σ) β}
    (hfirst : Keeps first first') (hnext : ∀ value, Keeps (next value) (next' value)) :
    Keeps (first >>= next) (first' >>= next') := by
  intro state
  show (ExceptT.bindCont next (first.run.run (some state)).1).run
    (first.run.run (some state)).2 = _
  rw [hfirst state]
  show _ = (((ExceptT.bindCont next' (first'.run.run state).1).run (first'.run.run state).2).1,
    some ((ExceptT.bindCont next' (first'.run.run state).1).run (first'.run.run state).2).2)
  rcases first'.run.run state with ⟨fault | value, later⟩
  · rfl
  · exact hnext value later

/-- A failure is reworded. -/
theorem adapt {action : ExceptT ε (StateM (Option σ)) α} {other : ExceptT ε (StateM σ) α}
    (h : Keeps action other) (f : ε → φ) : Keeps (action.adapt f) (other.adapt f) := by
  intro state
  show ((action.run.run (some state)).1.mapError f, (action.run.run (some state)).2) = _
  rw [h state]
  rfl

theorem forM {actions : α → ExceptT ε (StateM (Option σ)) Unit}
    {others : α → ExceptT ε (StateM σ) Unit} {values : List α}
    (h : ∀ value ∈ values, Keeps (actions value) (others value)) :
    Keeps (ForM.forM values actions) (ForM.forM values others) := by
  induction values with
  | nil => exact .pure _
  | cons value values ih =>
    rw [List.forM_cons, List.forM_cons]
    exact (h value List.mem_cons_self).bind fun _ ↦
      ih fun later hlater ↦ h later (List.mem_cons_of_mem value hlater)

end Keeps

/-! ### The auditor -/

/-- Adds a finding to those that there are. -/
def checkedReport (finding : Finding) : Visit (Option (Array Finding)) Unit :=
  modify (Option.map (·.push finding))

/-- The site of an offset in the enclosing code. -/
def checkedSiteOf? (context : Context) (offset : Nat) : Option Site :=
  match context.code?.bind Code.lineNumberTable? with
  | none => some (.offset offset)
  | some table => (table.checkedLineFor? offset).map fun
    | some line => .line line
    | none => .offset offset

/-- Reports an instruction if it enters a monitor. An item that does not decode is a failure. -/
def checkedAuditItem (context : Context) :
    Except InstructionFault Instruction → Visit (Option (Array Finding)) Unit
  | .ok instruction =>
    if instruction.opcode = Opcode.monitorEnter then
      let methodName := (context.method?.map (·.name)).getD ""
      orLose (checkedSiteOf? context instruction.offset) fun site ↦
        checkedReport (.synchronizedBlock context.classFile.name methodName site)
    else pure ()
  | .error fault => throw (.instruction fault)

/-- Reports synchronized methods and, from each body of code, the entries of monitors. -/
def checkedAuditEvent (context : Context) : Event → Visit (Option (Array Finding)) Unit
  | .method member =>
    if member.isSynchronized then
      checkedReport (.synchronizedMethod context.classFile.name member.name)
    else pure ()
  | .code body =>
    orLose (Instruction.checkedItems? body.bytes) fun items ↦
      items.forM (checkedAuditItem context)
  | _ => pure ()

/-- The visitor that collects findings until an operation fails. -/
def checkedAuditor : Visitor (Option (Array Finding)) where
  wantsInstructions _ := false
  visit := checkedAuditEvent

/-- The findings of the class file that the bytes of a unit hold. -/
def checkedAuditBytes (unit : String) (bytes : List UInt8) :
    Option (Except ScanFailure (List Finding)) := do
  match ← ClassFile.checkedParse unit bytes with
  | .error failure => return .error failure
  | .ok classFile =>
    let (result, state) := (checkedAuditor.walk classFile).run.run (some #[])
    let findings ← state
    return result.map fun _ ↦ findings.toList

theorem checkedSiteOf?_eq (context : Context) (offset : Nat) :
    checkedSiteOf? context offset = some (siteOf context offset) := by
  rw [checkedSiteOf?, siteOf, Context.lineFor?]
  cases hcode : context.code? with
  | none => rfl
  | some body =>
    cases htable : body.lineNumberTable? with
    | none => simp [htable]
    | some table =>
      simp only [Option.bind_some, Option.bind_eq_bind, htable, table.checkedLineFor?_eq]
      cases table.lineFor? offset <;> rfl

/-- The instructions of a body of fewer than `2 ^ 32` bytes lose no findings. -/
theorem keeps_checkedAuditItem (context : Context) (item : Except InstructionFault Instruction) :
    Keeps (checkedAuditItem context item) (auditItem context item) := by
  cases item with
  | error fault => exact .throw _
  | ok instruction =>
    rw [checkedAuditItem, auditItem, checkedSiteOf?_eq]
    by_cases henters : instruction.opcode = Opcode.monitorEnter
    · rw [if_pos henters, if_pos henters]
      exact .of_modify _
    · rw [if_neg henters, if_neg henters]
      exact .pure _

theorem keeps_performBare {step : Step}
    (hsmall : ∀ body, step.met = .ok (.code body) → body.bytes.length < 2 ^ 32) :
    Keeps (checkedAuditor.performBare step) (auditor.performBare step) := by
  obtain ⟨context, met⟩ := step
  cases met with
  | error fault => exact .throw _
  | ok event =>
    cases event with
    | code body =>
      show Keeps (orLose (Instruction.checkedItems? body.bytes) _) _
      rw [Instruction.checkedItems?_eq (hsmall body rfl)]
      exact .forM fun item _ ↦ keeps_checkedAuditItem context item
    | method member =>
      show Keeps (if member.isSynchronized then _ else _) (if member.isSynchronized then _ else _)
      by_cases hsynchronized : member.isSynchronized
      · rw [if_pos hsynchronized, if_pos hsynchronized]
        exact .of_modify _
      · rw [if_neg hsynchronized, if_neg hsynchronized]
        exact .pure _
    | _ => exact .pure _

/-- An audit of a parsed class loses no findings. -/
theorem keeps_walk {unit : String} {bytes : List UInt8} {classFile : ClassFile}
    (h : ClassFile.parse unit bytes = .ok classFile) :
    Keeps (checkedAuditor.walk classFile) (auditor.walk classFile) := by
  rw [checkedAuditor.walk_eq_forM_steps (fun _ ↦ rfl), auditor.walk_eq_forM_steps (fun _ ↦ rfl)]
  refine .forM fun step hstep ↦ .adapt (keeps_performBare fun body hbody ↦ ?_) step.failure
  exact ClassFile.length_bytes_lt h body
    (ClassFile.mem_bodies_of_mem_steps (ClassFile.isFlat_of_parse h) hstep hbody)

/-- No operation fails while a class file is audited. -/
theorem checkedAuditBytes_eq (unit : String) {bytes : List UInt8} (h : bytes.length < 2 ^ 63) :
    checkedAuditBytes unit bytes = some (auditBytes unit bytes) := by
  rw [checkedAuditBytes, auditBytes, ClassFile.checkedParse_eq unit h]
  cases hparse : ClassFile.parse unit bytes with
  | error failure => rfl
  | ok classFile =>
    simp only [Option.bind_some, keeps_walk hparse #[], bind, Except.bind,
      auditClass]
    cases ((auditor.walk classFile).run.run #[]).1 <;> rfl

end Audit

end MonitorAudit
