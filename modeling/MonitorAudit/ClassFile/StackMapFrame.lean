import MonitorAudit.ClassFile.PayloadFault

/-!
# Stack map frames

A `StackMapFrame` describes the types of the local variables and of the operand stack at a place in
the code, mostly as a change to the frame before it. The number in front of a frame is both its
form and, for short forms, its distance from the frame before; distances that do not fit have a
long form.
-/

set_option autoImplicit false

namespace MonitorAudit

/-- The type of a local variable or of a stack entry. -/
inductive VerificationType where
  | top
  | integer
  | float
  | double
  | long
  | null
  | uninitializedThis
  | object (classIndex : UInt16)
  | uninitialized (offset : UInt16)
  deriving DecidableEq, Repr

/-- The types at a place in the code. -/
inductive StackMapFrame where
  | same (delta : UInt16)
  | sameLocalsOneStack (delta : UInt16) (stack : VerificationType)
  | chop (delta : UInt16) (absentLocals : UInt8)
  | append (delta : UInt16) (locals : List VerificationType)
  | full (delta : UInt16) (locals stack : List VerificationType)
  deriving DecidableEq, Repr

/-- Reads a verification type, tag first. -/
def VerificationType.decode : Decoder PayloadFault VerificationType := do
  let start ← Decoder.position
  let tag ← Decoder.u8
  match tag.toNat with
  | 0 => return .top
  | 1 => return .integer
  | 2 => return .float
  | 3 => return .double
  | 4 => return .long
  | 5 => return .null
  | 6 => return .uninitializedThis
  | 7 => return .object (← Decoder.u16)
  | 8 => return .uninitialized (← Decoder.u16)
  | _ => Decoder.fail (.invalidTag tag start)

/-- Reads a frame, its number first. -/
def StackMapFrame.decode : Decoder PayloadFault StackMapFrame := do
  let start ← Decoder.position
  let number ← Decoder.u8
  if number < 64 then return .same number.toUInt16
  else if number < 128 then
    return .sameLocalsOneStack (number - 64).toUInt16 (← VerificationType.decode)
  else if number < 247 then Decoder.fail (.invalidTag number start)
  else if number = 247 then
    return .sameLocalsOneStack (← Decoder.u16) (← VerificationType.decode)
  else if number < 251 then return .chop (← Decoder.u16) (251 - number)
  else if number = 251 then return .same (← Decoder.u16)
  else if number < 255 then
    let delta ← Decoder.u16
    let locals ← Decoder.times (number.toNat - 251) VerificationType.decode
    return .append delta locals
  else
    let delta ← Decoder.u16
    let locals ← Decoder.counted16 VerificationType.decode
    let stack ← Decoder.counted16 VerificationType.decode
    return .full delta locals stack

end MonitorAudit
