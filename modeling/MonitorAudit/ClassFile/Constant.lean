import MonitorAudit.Text.ModifiedUtf8
import MonitorAudit.Bytes.Decoder

/-!
# Constants

A `Constant` is one entry of a class file's constant pool; its `ConstantKind` is the word that
diagnostics use for it. A tag byte names the kind (`ConstantKind.ofTag?`, `ConstantKind.tag`) and
`ConstantKind.decode` reads what follows the tag. Floating-point constants are kept as their bit
patterns, so that every payload of a NaN survives.
-/

set_option autoImplicit false

namespace MonitorAudit

/-- The kinds of constant. -/
inductive ConstantKind where
  | utf8
  | integer
  | float
  | long
  | double
  | classRef
  | string
  | fieldRef
  | methodRef
  | interfaceMethodRef
  | nameAndType
  | methodHandle
  | methodType
  | dynamic
  | invokeDynamic
  | moduleRef
  | packageRef
  deriving DecidableEq, Repr

namespace ConstantKind

/-- Every kind, in the order of the tags. -/
def all : List ConstantKind :=
  [.utf8, .integer, .float, .long, .double, .classRef, .string, .fieldRef, .methodRef,
    .interfaceMethodRef, .nameAndType, .methodHandle, .methodType, .dynamic, .invokeDynamic,
    .moduleRef, .packageRef]

/-- The byte in front of a constant of the kind. -/
def tag : ConstantKind → UInt8
  | utf8 => 1
  | integer => 3
  | float => 4
  | long => 5
  | double => 6
  | classRef => 7
  | string => 8
  | fieldRef => 9
  | methodRef => 10
  | interfaceMethodRef => 11
  | nameAndType => 12
  | methodHandle => 15
  | methodType => 16
  | dynamic => 17
  | invokeDynamic => 18
  | moduleRef => 19
  | packageRef => 20

/-- The kind that a tag byte announces. -/
def ofTag? (tag : UInt8) : Option ConstantKind := all.find? fun kind ↦ kind.tag = tag

/-- The word for the kind in diagnostics. -/
def name : ConstantKind → String
  | utf8 => "Utf8"
  | integer => "Integer"
  | float => "Float"
  | long => "Long"
  | double => "Double"
  | classRef => "Class"
  | string => "String"
  | fieldRef => "Fieldref"
  | methodRef => "Methodref"
  | interfaceMethodRef => "InterfaceMethodref"
  | nameAndType => "NameAndType"
  | methodHandle => "MethodHandle"
  | methodType => "MethodType"
  | dynamic => "Dynamic"
  | invokeDynamic => "InvokeDynamic"
  | moduleRef => "Module"
  | packageRef => "Package"

/-- The kind that a word names. -/
def ofName? (name : String) : Option ConstantKind := all.find? fun kind ↦ kind.name = name

theorem mem_all (kind : ConstantKind) : kind ∈ all := by cases kind <;> decide

theorem ofTag?_tag (kind : ConstantKind) : ofTag? kind.tag = some kind := by cases kind <;> decide

theorem tag_of_ofTag? {tag : UInt8} {kind : ConstantKind} (h : ofTag? tag = some kind) :
    kind.tag = tag := by
  simpa using List.find?_some h

end ConstantKind

/-- An entry of a constant pool. The numbers named `…Index` are positions in the same pool. -/
inductive Constant where
  | utf8 (text : String)
  | integer (value : Int32)
  | float (bits : UInt32)
  | long (value : Int64)
  | double (bits : UInt64)
  | classRef (nameIndex : UInt16)
  | string (stringIndex : UInt16)
  | fieldRef (classIndex nameAndTypeIndex : UInt16)
  | methodRef (classIndex nameAndTypeIndex : UInt16)
  | interfaceMethodRef (classIndex nameAndTypeIndex : UInt16)
  | nameAndType (nameIndex descriptorIndex : UInt16)
  | methodHandle (referenceKind : UInt8) (referenceIndex : UInt16)
  | methodType (descriptorIndex : UInt16)
  | dynamic (bootstrapIndex nameAndTypeIndex : UInt16)
  | invokeDynamic (bootstrapIndex nameAndTypeIndex : UInt16)
  | moduleRef (nameIndex : UInt16)
  | packageRef (nameIndex : UInt16)
  deriving DecidableEq, Repr

namespace Constant

/-- The kind of a constant. -/
def kind : Constant → ConstantKind
  | utf8 _ => .utf8
  | integer _ => .integer
  | float _ => .float
  | long _ => .long
  | double _ => .double
  | classRef _ => .classRef
  | string _ => .string
  | fieldRef _ _ => .fieldRef
  | methodRef _ _ => .methodRef
  | interfaceMethodRef _ _ => .interfaceMethodRef
  | nameAndType _ _ => .nameAndType
  | methodHandle _ _ => .methodHandle
  | methodType _ => .methodType
  | dynamic _ _ => .dynamic
  | invokeDynamic _ _ => .invokeDynamic
  | moduleRef _ => .moduleRef
  | packageRef _ => .packageRef

/-- Whether a constant takes two slots of its pool, the second of which holds nothing. -/
def isWide : Constant → Bool
  | long _ | double _ => true
  | _ => false

/-- The number of slots that a constant takes. -/
def width (constant : Constant) : Nat := if constant.isWide then 2 else 1

/-- The slots that a constant takes. -/
def slots (constant : Constant) : List (Option Constant) :=
  if constant.isWide then [some constant, none] else [some constant]

theorem length_slots (constant : Constant) : constant.slots.length = constant.width := by
  unfold slots width
  split <;> rfl

end Constant

/-- Reads the part of a constant behind its tag. -/
def ConstantKind.decode {ε : Type} [OfEndOfData ε] : ConstantKind → Decoder ε Constant
  | utf8 => do
    let length ← Decoder.u16
    let bytes ← Decoder.take length.toNat
    return .utf8 (ModifiedUtf8.decode bytes)
  | integer => do return .integer (← Decoder.i32)
  | float => do return .float (← Decoder.u32)
  | long => do return .long (← Decoder.u64).toInt64
  | double => do return .double (← Decoder.u64)
  | classRef => do return .classRef (← Decoder.u16)
  | string => do return .string (← Decoder.u16)
  | fieldRef => do return .fieldRef (← Decoder.u16) (← Decoder.u16)
  | methodRef => do return .methodRef (← Decoder.u16) (← Decoder.u16)
  | interfaceMethodRef => do return .interfaceMethodRef (← Decoder.u16) (← Decoder.u16)
  | nameAndType => do return .nameAndType (← Decoder.u16) (← Decoder.u16)
  | methodHandle => do return .methodHandle (← Decoder.u8) (← Decoder.u16)
  | methodType => do return .methodType (← Decoder.u16)
  | dynamic => do return .dynamic (← Decoder.u16) (← Decoder.u16)
  | invokeDynamic => do return .invokeDynamic (← Decoder.u16) (← Decoder.u16)
  | moduleRef => do return .moduleRef (← Decoder.u16)
  | packageRef => do return .packageRef (← Decoder.u16)

end MonitorAudit
