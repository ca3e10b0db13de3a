import MonitorAudit.ClassFile.Fault

/-!
# Faults inside a payload

The structure of an attribute is read from its payload alone. A `PayloadFault` is what can go wrong
there, in terms of the payload: the record around it (`AttributeFault`) gives the fault a name and
compares it with the declared length.
-/

set_option autoImplicit false

namespace MonitorAudit

/-- What can go wrong in the payload of an attribute. -/
inductive PayloadFault where
  /-- The structure needs more bytes than the payload has. -/
  | endOfData (failure : EndOfData)
  /-- A tag byte at the offset that no structure has. -/
  | invalidTag (tag : UInt8) (offset : Nat)
  /-- An element value at the offset that too many others enclose. -/
  | tooDeep (offset : Nat)
  /-- A fault that has its own name already. -/
  | other (fault : ClassFault)
  deriving DecidableEq, Repr

instance : OfEndOfData PayloadFault := ⟨.endOfData⟩

/-- A fault of a record inside the payload. A record cut short by the end of the payload has
overrun the payload. -/
def PayloadFault.ofClassFault : ClassFault → PayloadFault
  | .malformed (.truncated offset wanted) => .endOfData ⟨offset, wanted⟩
  | fault => .other fault

end MonitorAudit
