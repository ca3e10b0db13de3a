import MonitorAudit.ClassFile.PayloadFault

/-!
# Annotations and their element values

An `AnnotationEntry` is a type with named element values. An `ElementValue` is a constant, an
enumeration constant, a class, an annotation of its own or an array, so the two types hold each
other. `ElementValue.decode levels` reads a value in which at most `levels` values enclose each
other; what is nested deeper is refused where it starts, before its tag is looked at.

A `TypeAnnotationEntry` is an annotation on a use of a type. The byte in front of it says what kind
of place it targets (`TargetForm`).
-/

set_option autoImplicit false

namespace MonitorAudit

mutual

/-- A value of an element of an annotation. -/
inductive ElementValue where
  /-- A primitive value or a string, by the tag of its type. -/
  | const (tag : UInt8) (index : UInt16)
  | enum (typeNameIndex constNameIndex : UInt16)
  | classRef (index : UInt16)
  | nested (entry : AnnotationEntry)
  | array (values : List ElementValue)

/-- An element of an annotation with its value. -/
structure ElementPair where
  nameIndex : UInt16
  value : ElementValue

/-- An annotation: its type and its elements. -/
structure AnnotationEntry where
  typeIndex : UInt16
  elements : List ElementPair

end

/-- How many element values may enclose each other, the innermost one included. -/
def maxElementLevels : Nat := 256

/-- What the tag of an element value announces. -/
inductive ElementForm where
  | const
  | enum
  | classRef
  | nested
  | array
  deriving DecidableEq, Repr

/-- The form of the element value behind a tag byte. -/
def ElementForm.ofTag? (tag : UInt8) : Option ElementForm :=
  match Char.ofNat tag.toNat with
  | 'B' | 'C' | 'D' | 'F' | 'I' | 'J' | 'S' | 'Z' | 's' => some .const
  | 'e' => some .enum
  | 'c' => some .classRef
  | '@' => some .nested
  | '[' => some .array
  | _ => none

/-- Reads an annotation whose element values are read by the decoder given. -/
def AnnotationEntry.decodeWith (value : Decoder PayloadFault ElementValue) :
    Decoder PayloadFault AnnotationEntry := do
  let typeIndex ← Decoder.u16
  let elements ← Decoder.counted16 do
    let nameIndex ← Decoder.u16
    return ⟨nameIndex, ← value⟩
  return ⟨typeIndex, elements⟩

/-- Reads an element value of at most so many levels. -/
def ElementValue.decode : Nat → Decoder PayloadFault ElementValue
  | 0 => do Decoder.fail (.tooDeep (← Decoder.position))
  | levels + 1 => do
    let start ← Decoder.position
    let tag ← Decoder.u8
    match ElementForm.ofTag? tag with
    | some .const => return .const tag (← Decoder.u16)
    | some .enum => return .enum (← Decoder.u16) (← Decoder.u16)
    | some .classRef => return .classRef (← Decoder.u16)
    | some .nested => return .nested (← AnnotationEntry.decodeWith (ElementValue.decode levels))
    | some .array => return .array (← Decoder.counted16 (ElementValue.decode levels))
    | none => Decoder.fail (.invalidTag tag start)

/-- Reads an annotation that no element value encloses. -/
def AnnotationEntry.decode : Decoder PayloadFault AnnotationEntry :=
  AnnotationEntry.decodeWith (ElementValue.decode maxElementLevels)

/-! ### Annotations on types -/

/-- A stretch of code in which a local variable has a slot. -/
structure LocalVariableRange where
  startPc : UInt16
  length : UInt16
  slot : UInt16
  deriving DecidableEq, Repr

/-- The place that an annotation on a type targets. -/
inductive TypeTarget where
  | typeParameter (index : UInt8)
  | supertype (index : UInt16)
  | typeParameterBound (parameter bound : UInt8)
  | empty
  | formalParameter (index : UInt8)
  | throws (index : UInt16)
  | localVariable (ranges : List LocalVariableRange)
  | exceptionParameter (handlerIndex : UInt16)
  | offset (start : UInt16)
  | typeArgument (offset : UInt16) (argument : UInt8)
  deriving DecidableEq, Repr

/-- The kinds of place that an annotation on a type can target. -/
inductive TargetForm where
  | typeParameter
  | supertype
  | typeParameterBound
  | empty
  | formalParameter
  | throws
  | localVariable
  | exceptionParameter
  | offset
  | typeArgument
  deriving DecidableEq, Repr

/-- The kind of place that a target type byte announces. -/
def TargetForm.ofType? (targetType : UInt8) : Option TargetForm :=
  match targetType.toNat with
  | 0x00 | 0x01 => some .typeParameter
  | 0x10 => some .supertype
  | 0x11 | 0x12 => some .typeParameterBound
  | 0x13 | 0x14 | 0x15 => some .empty
  | 0x16 => some .formalParameter
  | 0x17 => some .throws
  | 0x40 | 0x41 => some .localVariable
  | 0x42 => some .exceptionParameter
  | 0x43 | 0x44 | 0x45 | 0x46 => some .offset
  | 0x47 | 0x48 | 0x49 | 0x4A | 0x4B => some .typeArgument
  | _ => none

/-- Reads a target of the kind given. -/
def TargetForm.decode : TargetForm → Decoder PayloadFault TypeTarget
  | .typeParameter => do return .typeParameter (← Decoder.u8)
  | .supertype => do return .supertype (← Decoder.u16)
  | .typeParameterBound => do return .typeParameterBound (← Decoder.u8) (← Decoder.u8)
  | .empty => return .empty
  | .formalParameter => do return .formalParameter (← Decoder.u8)
  | .throws => do return .throws (← Decoder.u16)
  | .localVariable => do
    let ranges ← Decoder.counted16 do
      return ⟨← Decoder.u16, ← Decoder.u16, ← Decoder.u16⟩
    return .localVariable ranges
  | .exceptionParameter => do return .exceptionParameter (← Decoder.u16)
  | .offset => do return .offset (← Decoder.u16)
  | .typeArgument => do return .typeArgument (← Decoder.u16) (← Decoder.u8)

/-- A step from a type into one of its parts. -/
structure TypePathStep where
  kind : UInt8
  argumentIndex : UInt8
  deriving DecidableEq, Repr

/-- An annotation on a use of a type. -/
structure TypeAnnotationEntry where
  targetType : UInt8
  target : TypeTarget
  path : List TypePathStep
  entry : AnnotationEntry

/-- Reads an annotation on a use of a type. -/
def TypeAnnotationEntry.decode : Decoder PayloadFault TypeAnnotationEntry := do
  let start ← Decoder.position
  let targetType ← Decoder.u8
  match TargetForm.ofType? targetType with
  | none => Decoder.fail (.invalidTag targetType start)
  | some form =>
    let target ← form.decode
    let path ← Decoder.counted8 do
      return ⟨← Decoder.u8, ← Decoder.u8⟩
    let entry ← AnnotationEntry.decode
    return ⟨targetType, target, path, entry⟩

end MonitorAudit
