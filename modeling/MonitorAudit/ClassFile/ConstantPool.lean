import MonitorAudit.ClassFile.Fault

/-!
# Constant pools

A `ConstantPool` holds the constants of a class file in slots that are counted from one. Slot zero
holds nothing, and neither does the second slot of a wide constant. `ofConstants` lays constants
out in slots; a slot at or past the declared count is cut off, so no index out of range is ever
answered. `get?` answers a slot, `resolve?` one of a wanted kind, and `utf8?`, `className?` and
`nameAndType?` follow the indices that a constant holds.
-/

set_option autoImplicit false

namespace MonitorAudit

/-- The constants of a class file by slot. -/
structure ConstantPool where
  /-- The declared count, which is one more than the number of slots that can be used. -/
  count : UInt16
  /-- The slots from zero on. -/
  slots : Array (Option Constant)
  deriving DecidableEq, Repr

namespace ConstantPool

/-- The pool of a declared count that holds the constants in the order given. -/
def ofConstants (count : UInt16) (constants : List Constant) : ConstantPool :=
  ⟨count, ((none :: constants.flatMap Constant.slots).take (max count.toNat 1)).toArray⟩

/-- Whether no slot can be used. -/
def isEmpty (pool : ConstantPool) : Bool := pool.count ≤ 1

/-- The constant of a slot. -/
def get? (pool : ConstantPool) (index : UInt16) : Except PoolFault Constant :=
  match pool.slots[index.toNat]? with
  | some (some constant) => .ok constant
  | _ => .error (.badIndex index pool.count)

/-- The constant of a slot, which has to be of the kind given. -/
def resolve? (pool : ConstantPool) (index : UInt16) (expected : ConstantKind) :
    Except PoolFault Constant := do
  let constant ← pool.get? index
  if constant.kind = expected then .ok constant
  else .error (.typeMismatch index expected constant.kind)

/-- The text of a slot. -/
def utf8? (pool : ConstantPool) (index : UInt16) : Except PoolFault String := do
  match ← pool.get? index with
  | .utf8 text => .ok text
  | constant => .error (.typeMismatch index .utf8 constant.kind)

/-- The name of the class to which a slot refers, with slashes between its parts. -/
def className? (pool : ConstantPool) (index : UInt16) : Except PoolFault String := do
  match ← pool.get? index with
  | .classRef nameIndex => pool.utf8? nameIndex
  | constant => .error (.typeMismatch index .classRef constant.kind)

/-- The name and the descriptor to which a slot refers. -/
def nameAndType? (pool : ConstantPool) (index : UInt16) : Except PoolFault (String × String) := do
  match ← pool.get? index with
  | .nameAndType nameIndex descriptorIndex =>
    let name ← pool.utf8? nameIndex
    let descriptor ← pool.utf8? descriptorIndex
    return (name, descriptor)
  | constant => .error (.typeMismatch index .nameAndType constant.kind)

/-- The constants with their indices, in increasing order. -/
def entries (pool : ConstantPool) : List (UInt16 × Constant) :=
  pool.slots.toList.zipIdx.filterMap fun (slot, index) ↦
    slot.map fun constant ↦ (UInt16.ofNat index, constant)

/-! ### Reading -/

/-- A constant at the slot `index`, tag first. -/
def decodeConstant (index : Nat) : Decoder MalformedClass Constant := do
  let offset ← Decoder.position
  let tag ← Decoder.u8
  match ConstantKind.ofTag? tag with
  | some kind => kind.decode
  | none => Decoder.fail (.badConstantTag tag (UInt16.ofNat index) offset)

/-- Reads constants from the slot `index` on until the slots below `count` are filled, behind
those already read, which come last first. -/
def decodeConstantsOnto (count index : Nat) (constants : List Constant) :
    Decoder MalformedClass (List Constant) :=
  if index < count then do
    let constant ← decodeConstant index
    decodeConstantsOnto count (index + constant.width) (constant :: constants)
  else return constants.reverse
termination_by count - index
decreasing_by
  have hwidth : 1 ≤ constant.width := by unfold Constant.width; split <;> omega
  omega

/-- Reads a constant pool: the declared count, and constants until its slots are filled. -/
def decode : Decoder MalformedClass ConstantPool := do
  let count ← Decoder.u16
  let constants ← decodeConstantsOnto count.toNat 1 []
  return ofConstants count constants

end ConstantPool

end MonitorAudit
