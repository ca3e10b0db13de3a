import MonitorAudit.ClassFile.Traversal

/-!
# Findings

A `Finding` is a place where a class synchronizes: a method that is declared synchronized, or a
block, which is an instruction that enters a monitor. A block has a `Site`, the source line where
there is one and otherwise the offset of the instruction.

`auditor` is the visitor that collects them, and `auditBytes` the findings of a class file: methods
in the order of the file, the blocks of each behind it in the order of the code.
-/

set_option autoImplicit false

namespace MonitorAudit

/-- Where in a method a synchronized block starts. -/
inductive Site where
  | line (number : UInt16)
  /-- The offset of the instruction, where no line is known for it. -/
  | offset (start : Nat)
  deriving DecidableEq, Repr

/-- A place where a class synchronizes. -/
inductive Finding where
  | synchronizedMethod (className methodName : String)
  | synchronizedBlock (className methodName : String) (site : Site)
  deriving DecidableEq, Repr

/-- The words for a site. -/
def Site.text : Site → String
  | line number => s!"line {number}"
  | offset start => s!"offset {start}"

/-- The line of a report for a finding. -/
def Finding.text : Finding → String
  | synchronizedMethod className methodName => s!"synchronized method: {className}#{methodName}"
  | synchronizedBlock className methodName site =>
    s!"synchronized block: {className}#{methodName} {site.text}"

namespace Audit

/-- Adds a finding to those that there are. -/
def report (finding : Finding) : Visit (Array Finding) Unit := modify (·.push finding)

/-- The site of an offset in the enclosing code. -/
def siteOf (context : Context) (offset : Nat) : Site :=
  match context.lineFor? offset with
  | some line => .line line
  | none => .offset offset

/-- Reports an instruction if it enters a monitor. An item that does not decode is a failure. -/
def auditItem (context : Context) :
    Except InstructionFault Instruction → Visit (Array Finding) Unit
  | .ok instruction =>
    if instruction.opcode = Opcode.monitorEnter then
      let methodName := (context.method?.map (·.name)).getD ""
      report (.synchronizedBlock context.classFile.name methodName
        (siteOf context instruction.offset))
    else pure ()
  | .error fault => throw (.instruction fault)

/-- Reports synchronized methods and, from each body of code, the entries of monitors. -/
def auditEvent (context : Context) : Event → Visit (Array Finding) Unit
  | .method member =>
    if member.isSynchronized then
      report (.synchronizedMethod context.classFile.name member.name)
    else pure ()
  | .code body => (Instruction.items body.bytes).forM (auditItem context)
  | _ => pure ()

/-- The visitor that collects findings. It decodes bodies itself and so wants no instructions. -/
def auditor : Visitor (Array Finding) where
  wantsInstructions _ := false
  visit := auditEvent

/-- The result of an audit of a class, and all findings that there are after it. -/
def auditClass (classFile : ClassFile) (findings : Array Finding) :
    Except ScanFailure Unit × Array Finding :=
  (auditor.walk classFile).run.run findings

/-- The findings of the class file that the bytes of a unit hold. -/
def auditBytes (unit : String) (bytes : List UInt8) : Except ScanFailure (List Finding) := do
  let classFile ← ClassFile.parse unit bytes
  let (result, findings) := auditClass classFile #[]
  let _ ← result
  return findings.toList

end Audit

end MonitorAudit
