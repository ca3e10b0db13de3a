import MonitorAudit.ClassFile.Attribute
import MonitorAudit.ClassFile.ConstantPool

/-!
# Attribute records

In the file an attribute is a record: the index of its name, the length of its payload, and the
payload. The declared length is authoritative. The structure of a known attribute is read from a
window of just that many bytes and has to use all of them, and the cursor moves past the payload
whatever becomes of it (`decodeDelimited`).

A line table that cannot be read is kept as bytes, since its loss costs only line numbers. The
record of a method's body holds records of its own, and a body in one of those is refused before
its payload is looked at, so records nest two deep and no deeper.
-/

set_option autoImplicit false

namespace MonitorAudit

/-! ### Payloads -/

def LineNumber.decode : Decoder PayloadFault LineNumber := do
  return ⟨← Decoder.u16, ← Decoder.u16⟩

def LocalVariable.decode : Decoder PayloadFault LocalVariable := do
  return ⟨← Decoder.u16, ← Decoder.u16, ← Decoder.u16, ← Decoder.u16, ← Decoder.u16⟩

def InnerClass.decode : Decoder PayloadFault InnerClass := do
  return ⟨← Decoder.u16, ← Decoder.u16, ← Decoder.u16, ← Decoder.u16⟩

def BootstrapMethod.decode : Decoder PayloadFault BootstrapMethod := do
  return ⟨← Decoder.u16, ← Decoder.counted16 Decoder.u16⟩

def MethodParameter.decode : Decoder PayloadFault MethodParameter := do
  return ⟨← Decoder.u16, ← Decoder.u16⟩

def ExceptionHandler.decode : Decoder PayloadFault ExceptionHandler := do
  return ⟨← Decoder.u16, ← Decoder.u16, ← Decoder.u16, ← Decoder.u16⟩

/-- Reads the payload of an attribute of a known kind. -/
def AttributeKind.decode : AttributeKind → Decoder PayloadFault Attribute
  | lineNumberTable => do
    return .lineNumberTable (.ofRows (← Decoder.counted16 LineNumber.decode))
  | localVariableTable => do
    return .localVariableTable (← Decoder.counted16 LocalVariable.decode)
  | localVariableTypeTable => do
    return .localVariableTypeTable (← Decoder.counted16 LocalVariable.decode)
  | exceptions => do return .exceptions (← Decoder.counted16 Decoder.u16)
  | constantValue => do return .constantValue (← Decoder.u16)
  | deprecated => return .deprecated
  | synthetic => return .synthetic
  | signature => do return .signature (← Decoder.u16)
  | sourceFile => do return .sourceFile (← Decoder.u16)
  | innerClasses => do return .innerClasses (← Decoder.counted16 InnerClass.decode)
  | enclosingMethod => do return .enclosingMethod (← Decoder.u16) (← Decoder.u16)
  | bootstrapMethods => do return .bootstrapMethods (← Decoder.counted16 BootstrapMethod.decode)
  | methodParameters => do return .methodParameters (← Decoder.counted8 MethodParameter.decode)
  | annotations visible => do
    return .annotations visible (← Decoder.counted16 AnnotationEntry.decode)
  | parameterAnnotations visible => do
    return .parameterAnnotations visible
      (← Decoder.counted8 (Decoder.counted16 AnnotationEntry.decode))
  | typeAnnotations visible => do
    return .typeAnnotations visible (← Decoder.counted16 TypeAnnotationEntry.decode)
  | annotationDefault => do
    return .annotationDefault (← ElementValue.decode maxElementLevels)
  | stackMapTable => do return .stackMapTable (← Decoder.counted16 StackMapFrame.decode)

/-! ### Records -/

/-- What is in front of a payload. -/
structure AttributeHeader where
  /-- The offset of the record. -/
  offset : Nat
  name : String
  /-- The declared length of the payload. -/
  length : UInt32
  deriving DecidableEq, Repr

/-- Reads the front of a record and resolves its name. -/
def AttributeHeader.decode (pool : ConstantPool) : Decoder ClassFault AttributeHeader := do
  let offset ← Decoder.position
  let nameIndex ← Decoder.u16
  let length ← Decoder.u32
  let name ← Decoder.ofExcept ((pool.utf8? nameIndex).mapError .pool)
  return ⟨offset, name, length⟩

/-- The fault of a record, from what went wrong in its payload. -/
def AttributeHeader.fault (header : AttributeHeader) : PayloadFault → ClassFault
  | .endOfData failure =>
    .record (.sizeMismatch header.name header.offset header.length
      (header.length.toNat + failure.wanted))
  | .invalidTag tag offset => .record (.invalidTag header.name offset tag)
  | .tooDeep offset => .record (.tooDeep header.name offset maxElementLevels)
  | .other fault => fault

/-- The attribute of a payload, which has to be used up by its structure. -/
def AttributeHeader.interpret (header : AttributeHeader)
    (layout : Decoder PayloadFault Attribute) (payload : Cursor) :
    Except ClassFault Attribute :=
  match layout payload with
  | (.error fault, _) => .error (header.fault fault)
  | (.ok value, left) =>
    if left.isEmpty then .ok value
    else .error (.record (.sizeMismatch header.name header.offset header.length
      (left.position - payload.position)))

/-- Reads the payload of a record by the layout given. A line table without that layout is
kept as bytes. -/
def decodeDelimited (header : AttributeHeader) (layout : Decoder PayloadFault Attribute) :
    Decoder ClassFault Attribute := do
  let payload ← Decoder.window header.length.toNat
  match header.interpret layout payload with
  | .ok value => return value
  | .error fault =>
    if header.name = AttributeKind.lineNumberTable.name then
      return .unknown header.name payload.rest
    else Decoder.fail fault

/-- Reads a record. The bodies of methods are read by the decoder given, or refused where there is
none. -/
def decodeRecord (pool : ConstantPool) (body? : Option (Decoder PayloadFault Code)) :
    Decoder ClassFault Attribute := do
  let header ← AttributeHeader.decode pool
  if header.name = Code.attributeName then
    match body? with
    | none => Decoder.fail (.record (.misplaced header.name header.offset Code.attributeName))
    | some body => decodeDelimited header (.code <$> body)
  else
    match AttributeKind.ofName? header.name with
    | some kind => decodeDelimited header kind.decode
    | none => decodeDelimited header (.unknown header.name <$> Decoder.takeRest)

/-- Reads the attributes of a body of code, none of which is a body. -/
def Code.decodeAttributes (pool : ConstantPool) : Decoder ClassFault (List Attribute) :=
  Decoder.counted16 (decodeRecord pool none)

/-- Reads the body of a method. -/
def Code.decode (pool : ConstantPool) : Decoder PayloadFault Code := do
  let maxStack ← Decoder.u16
  let maxLocals ← Decoder.u16
  let length ← Decoder.u32
  let bytes ← Decoder.take length.toNat
  let handlers ← Decoder.counted16 ExceptionHandler.decode
  let attributes ← (Code.decodeAttributes pool).mapFault PayloadFault.ofClassFault
  return ⟨maxStack, maxLocals, bytes, handlers, attributes⟩

/-- Reads an attribute of a class, a field or a method. -/
def Attribute.decode (pool : ConstantPool) : Decoder ClassFault Attribute :=
  decodeRecord pool (some (Code.decode pool))

/-- Reads the attributes of a class, a field or a method. -/
def Attribute.decodeTable (pool : ConstantPool) : Decoder ClassFault (List Attribute) :=
  Decoder.counted16 (Attribute.decode pool)

end MonitorAudit
