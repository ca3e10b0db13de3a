import MonitorAudit.Audit.Finding
import MonitorAudit.Proofs.ClassFile.Steps

/-!
# An auditor that is told the instructions

`Audit.auditor` decodes a body by itself when it meets the body. `Audit.listener` instead asks for
the instructions and waits for each of them. The two report the same findings in the same order and
end with the same failure, for any class and from any findings
(`Audit.walk_auditor_eq_walk_listener`).

Nothing in this is about findings. `Visitor.Inlines` says that one visitor does on its own, when it
meets a body, what a traversal does with the other: the body, and then each of its instructions.
`Visitor.Inlines.walk_eq` says that no traversal tells two such visitors apart.
-/

set_option autoImplicit false

namespace MonitorAudit

/-! ### Visitors that decode bodies by themselves -/

/-- The first visitor wants no instructions. Where it meets a body it does what the second does with
the body and, as it wants instructions, with each of them. Otherwise the two do the same. -/
structure Visitor.Inlines {σ : Type} (first second : Visitor σ) : Prop where
  wants_first : ∀ state, first.wantsInstructions state = false
  wants_second : ∀ state, second.wantsInstructions state = true
  visit_code : ∀ context body, first.visit context (.code body) = (do
    second.visit context (.code body)
    second.walkInstructions context body.bytes)
  visit_other : ∀ context event, (∀ body, event ≠ .code body) →
    (∀ instruction, event ≠ .instruction instruction) →
    first.visit context event = second.visit context event

namespace Visitor.Inlines

variable {σ : Type} {first second : Visitor σ} (h : first.Inlines second)

include h

/-- The two do the same with an attribute, however deep bodies are nested in it. -/
theorem walkAttribute_eq (value : Attribute) (context : Context) :
    first.walkAttribute context value = second.walkAttribute context value := by
  induction value using Attribute.body_induction generalizing context with
  | code body ih =>
    have hinside (context : Context) : first.walkAttributes context body.attributes =
        second.walkAttributes context body.attributes := by
      rw [walkAttributes_eq_forM, walkAttributes_eq_forM]
      exact forM_congr fun value hvalue ↦ ih value hvalue context
    rw [walkAttribute, walkAttribute, first.walkCode_eq h.wants_first,
      second.walkCode_eq h.wants_second, h.visit_code, hinside, bind_assoc]
    rfl
  | record value hvalue =>
    obtain ⟨record, hevent, -⟩ := Attribute.exists_event_eq_record hvalue
    rw [first.walkAttribute_of_ne_code hvalue, second.walkAttribute_of_ne_code hvalue, hevent]
    exact h.visit_other context (.record record) (by simp) (by simp)

theorem walkAttributes_eq (context : Context) (values : List Attribute) :
    first.walkAttributes context values = second.walkAttributes context values := by
  rw [walkAttributes_eq_forM, walkAttributes_eq_forM]
  exact forM_congr fun value _ ↦ h.walkAttribute_eq value context

theorem walkField_eq (context : Context) (field : Member) :
    first.walkField context field = second.walkField context field := by
  rw [walkField, walkField, h.visit_other _ (.field field) (by simp) (by simp),
    h.walkAttributes_eq]

theorem walkMethod_eq (context : Context) (method : Member) :
    first.walkMethod context method = second.walkMethod context method := by
  rw [walkMethod, walkMethod, h.visit_other _ (.method method) (by simp) (by simp),
    h.walkAttributes_eq]

/-- The two do the same with a class. -/
theorem walk_eq (classFile : ClassFile) : first.walk classFile = second.walk classFile := by
  rw [walk, walk, h.visit_other _ .classFile (by simp) (by simp)]
  simp only [h.walkField_eq, h.walkMethod_eq, h.walkAttributes_eq]

end Visitor.Inlines

/-! ### The listener -/

namespace Audit

/-- Reports a method that has the flag of synchronized methods, and an instruction that has the
opcode of an entry into a monitor, located by its line or else by its offset. -/
def listenerEvent (context : Context) : Event → Visit (Array Finding) Unit
  | .method member =>
    if member.accessFlags &&& 0x0020 ≠ 0 then
      report (.synchronizedMethod context.classFile.name member.name)
    else pure ()
  | .instruction instruction =>
    if instruction.opcode = 0xC2 then
      let methodName := (context.method?.map (·.name)).getD ""
      match context.lineFor? instruction.offset with
      | some line =>
        report (.synchronizedBlock context.classFile.name methodName (.line line))
      | none =>
        report (.synchronizedBlock context.classFile.name methodName (.offset instruction.offset))
    else pure ()
  | _ => pure ()

/-- The visitor that collects findings from the instructions that it is told. -/
def listener : Visitor (Array Finding) where
  wantsInstructions _ := true
  visit := listenerEvent

/-- The auditor does with an instruction of a body what the listener does when it is told one. -/
theorem auditItem_ok (context : Context) (instruction : Instruction) :
    auditItem context (.ok instruction) = listener.visit context (.instruction instruction) := by
  show auditItem context (.ok instruction) = listenerEvent context (.instruction instruction)
  simp only [auditItem, listenerEvent, siteOf, Opcode.monitorEnter]
  cases context.lineFor? instruction.offset <;> rfl

theorem auditor_inlines_listener : auditor.Inlines listener where
  wants_first _ := rfl
  wants_second _ := rfl
  visit_code context body := by
    show (Instruction.items body.bytes).forM (auditItem context) =
      pure () >>= fun _ ↦ listener.walkInstructions context body.bytes
    rw [pure_bind, Visitor.walkInstructions]
    congr 1
    funext item
    cases item with
    | ok instruction => exact auditItem_ok context instruction
    | error fault => rfl
  visit_other context event hcode hinstruction := by
    cases event with
    | code body => exact absurd rfl (hcode body)
    | instruction value => exact absurd rfl (hinstruction value)
    | method member =>
      have hflag : member.isSynchronized = true ↔ member.accessFlags &&& 0x0020 ≠ 0 :=
        decide_eq_true_iff
      show (if member.isSynchronized = true then _ else _) =
        if member.accessFlags &&& 0x0020 ≠ 0 then _ else _
      simp only [hflag]
    | _ => rfl

/-- An audit of a class ends with the result and the findings, also those in front of a failure,
with which the traversal ends that tells the listener each instruction. -/
theorem walk_auditor_eq_walk_listener (classFile : ClassFile) (findings : Array Finding) :
    (auditor.walk classFile).run.run findings = (listener.walk classFile).run.run findings := by
  rw [auditor_inlines_listener.walk_eq classFile]

end Audit

end MonitorAudit
