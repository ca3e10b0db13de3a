import MonitorAudit.ClassFile.AttributeRecord
import MonitorAudit.Proofs.Checked.Pool

/-!
# Attributes with machine arithmetic

The structure of an attribute is read from a reader of its own, and the offsets at its two ends are
subtracted to say how much of the payload was used. No operation fails while attributes are read,
and what is read is what the decoder reads (`Attribute.agrees_checkedTable`).

Three sums and differences need a reason. The number of a stack map frame is only ever compared with
bounds that the branch has established. The depth of an element value counts up while the levels
that are left count down, so it never passes `maxElementLevels` (`ElementValue.agrees_checked`). The
bytes that a structure needs are the declared ones and those that are missing, and both are fewer
than `2 ^ 32`, which is what `AgreesUpTo` keeps (`AttributeHeader.checkedFault?_eq`).
-/

set_option autoImplicit false

namespace MonitorAudit

open Checked (ofValue ofResult AgreesUpTo Agrees)

instance : CountsMissing ClassFault where
  missing
    | .malformed fault => missing fault
    | _ => 0

instance : LawfulMissing ClassFault := ⟨fun _ ↦ Nat.le_refl _⟩

instance : CountsMissing PayloadFault where
  missing
    | .endOfData failure => failure.wanted
    | .other fault => missing fault
    | _ => 0

instance : LawfulMissing PayloadFault := ⟨fun _ ↦ Nat.le_refl _⟩

/-- A use of the constant pool. -/
def Checked.ofPool {α : Type} (result : Option (Except PoolFault α)) : Checked ClassFault α :=
  ofResult (result.map (·.mapError .pool))

theorem Checked.AgreesUpTo.ofPool {α : Type} (result : Except PoolFault α) :
    Agrees (Checked.ofPool (some result)) (Decoder.ofExcept (result.mapError .pool)) := by
  refine AgreesUpTo.ofResult fun fault hfault ↦ ?_
  cases result with
  | ok value => exact nomatch hfault
  | error inner => exact Except.error.inj hfault ▸ Nat.two_pow_pos 32

/-! ### Rows -/

def LineNumber.checked : Checked PayloadFault LineNumber := do
  return ⟨← Checked.u16, ← Checked.u16⟩

def LocalVariable.checked : Checked PayloadFault LocalVariable := do
  return ⟨← Checked.u16, ← Checked.u16, ← Checked.u16, ← Checked.u16, ← Checked.u16⟩

def InnerClass.checked : Checked PayloadFault InnerClass := do
  return ⟨← Checked.u16, ← Checked.u16, ← Checked.u16, ← Checked.u16⟩

def BootstrapMethod.checked : Checked PayloadFault BootstrapMethod := do
  return ⟨← Checked.u16, ← Checked.counted16 Checked.u16⟩

def MethodParameter.checked : Checked PayloadFault MethodParameter := do
  return ⟨← Checked.u16, ← Checked.u16⟩

def ExceptionHandler.checked : Checked PayloadFault ExceptionHandler := do
  return ⟨← Checked.u16, ← Checked.u16, ← Checked.u16, ← Checked.u16⟩

def LocalVariableRange.checked : Checked PayloadFault LocalVariableRange := do
  return ⟨← Checked.u16, ← Checked.u16, ← Checked.u16⟩

def TypePathStep.checked : Checked PayloadFault TypePathStep := do
  return ⟨← Checked.u8, ← Checked.u8⟩

theorem LineNumber.agrees_checked : Agrees checked decode :=
  AgreesUpTo.u16.bind fun _ ↦ AgreesUpTo.u16.map _

theorem LocalVariable.agrees_checked : Agrees checked decode :=
  AgreesUpTo.u16.bind fun _ ↦ AgreesUpTo.u16.bind fun _ ↦ AgreesUpTo.u16.bind fun _ ↦
    AgreesUpTo.u16.bind fun _ ↦ AgreesUpTo.u16.map _

theorem InnerClass.agrees_checked : Agrees checked decode :=
  AgreesUpTo.u16.bind fun _ ↦ AgreesUpTo.u16.bind fun _ ↦ AgreesUpTo.u16.bind fun _ ↦
    AgreesUpTo.u16.map _

theorem BootstrapMethod.agrees_checked : Agrees checked decode :=
  AgreesUpTo.u16.bind fun _ ↦ (AgreesUpTo.counted16 AgreesUpTo.u16).map _

theorem MethodParameter.agrees_checked : Agrees checked decode :=
  AgreesUpTo.u16.bind fun _ ↦ AgreesUpTo.u16.map _

theorem ExceptionHandler.agrees_checked : Agrees checked decode :=
  AgreesUpTo.u16.bind fun _ ↦ AgreesUpTo.u16.bind fun _ ↦ AgreesUpTo.u16.bind fun _ ↦
    AgreesUpTo.u16.map _

/-! ### Stack map frames -/

/-- Reads a verification type, tag first. -/
def VerificationType.checked : Checked PayloadFault VerificationType := do
  let start ← Checked.position
  let tag ← Checked.u8
  match tag.toNat with
  | 0 => return .top
  | 1 => return .integer
  | 2 => return .float
  | 3 => return .double
  | 4 => return .long
  | 5 => return .null
  | 6 => return .uninitializedThis
  | 7 => return .object (← Checked.u16)
  | 8 => return .uninitialized (← Checked.u16)
  | _ => Checked.fail (.invalidTag tag start)

/-- Reads a frame, its number first. -/
def StackMapFrame.checked : Checked PayloadFault StackMapFrame := do
  let start ← Checked.position
  let number ← Checked.u8
  if number < 64 then return .same number.toUInt16
  else if number < 128 then
    let delta ← ofValue (sub? number.toNat 64)
    return .sameLocalsOneStack (UInt8.ofNat delta).toUInt16 (← VerificationType.checked)
  else if number < 247 then Checked.fail (.invalidTag number start)
  else if number = 247 then
    return .sameLocalsOneStack (← Checked.u16) (← VerificationType.checked)
  else if number < 251 then
    let delta ← Checked.u16
    let absent ← ofValue (sub? 251 number.toNat)
    return .chop delta (UInt8.ofNat absent)
  else if number = 251 then return .same (← Checked.u16)
  else if number < 255 then
    let delta ← Checked.u16
    let count ← ofValue (sub? number.toNat 251)
    let locals ← Checked.times VerificationType.checked count
    return .append delta locals
  else
    let delta ← Checked.u16
    let locals ← Checked.counted16 VerificationType.checked
    let stack ← Checked.counted16 VerificationType.checked
    return .full delta locals stack

theorem VerificationType.agrees_checked : Agrees checked decode := by
  refine AgreesUpTo.position.bind fun start ↦ AgreesUpTo.u8.bind fun tag ↦ ?_
  generalize tag.toNat = number
  match number with
  | 0 | 1 | 2 | 3 | 4 | 5 | 6 => exact .pure _
  | 7 | 8 => exact AgreesUpTo.u16.map _
  | _ + 9 => exact .refuse rfl

/-- The difference of two bytes is a byte. -/
theorem ofNat_toNat_sub {first second : UInt8} (h : second ≤ first) :
    UInt8.ofNat (first.toNat - second.toNat) = first - second := by
  rw [← UInt8.toNat_sub_of_le _ _ h, UInt8.ofNat_toNat]

theorem StackMapFrame.agrees_checked : Agrees checked decode := by
  refine AgreesUpTo.position.bind fun start ↦ AgreesUpTo.u8.bind fun number ↦ ?_
  refine .ite (fun _ ↦ .pure _) fun hsame ↦ ?_
  refine .ite (fun _ ↦ ?_) fun hstack ↦ ?_
  · have hle : (64 : UInt8) ≤ number := UInt8.not_lt.mp hsame
    rw [← ofNat_toNat_sub hle]
    exact .ofValue_bind (sub?_of_le hle) (VerificationType.agrees_checked.map _)
  refine .ite (fun _ ↦ .refuse rfl) fun hreserved ↦ ?_
  refine .ite (fun _ ↦ AgreesUpTo.u16.bind fun _ ↦ VerificationType.agrees_checked.map _)
    fun hlong ↦ ?_
  refine .ite (fun hchop ↦ AgreesUpTo.u16.bind fun delta ↦ ?_) fun hchop ↦ ?_
  · have hle : number ≤ 251 := UInt8.le_of_lt hchop
    rw [← ofNat_toNat_sub hle]
    exact .ofValue_bind (sub?_of_le hle) (.pure _)
  refine .ite (fun _ ↦ AgreesUpTo.u16.map _) fun hlast ↦ ?_
  have hle : (251 : UInt8) ≤ number := UInt8.not_lt.mp hchop
  refine .ite (fun _ ↦ AgreesUpTo.u16.bind fun delta ↦ ?_) fun _ ↦ ?_
  · exact .ofValue_bind (sub?_of_le hle) ((VerificationType.agrees_checked.times _).map _)
  · exact AgreesUpTo.u16.bind fun delta ↦ VerificationType.agrees_checked.counted16.bind fun _ ↦
      VerificationType.agrees_checked.counted16.map _

/-! ### Annotations -/

/-- Reads an annotation whose element values are read by the reading given. -/
def AnnotationEntry.checkedWith (value : Checked PayloadFault ElementValue) :
    Checked PayloadFault AnnotationEntry := do
  let typeIndex ← Checked.u16
  let elements ← Checked.counted16 do
    let nameIndex ← Checked.u16
    return ⟨nameIndex, ← value⟩
  return ⟨typeIndex, elements⟩

/-- Reads an element value that `depth` others enclose, in so many rounds. -/
def ElementValue.checked : Nat → Nat → Checked PayloadFault ElementValue
  | 0, _ => Checked.unreachable
  | rounds + 1, depth => do
    let start ← Checked.position
    if maxElementLevels ≤ depth then Checked.fail (.tooDeep start)
    else do
      let inner : Checked PayloadFault ElementValue := do
        ElementValue.checked rounds (← ofValue (add? 64 depth 1))
      let tag ← Checked.u8
      match ElementForm.ofTag? tag with
      | some .const => return .const tag (← Checked.u16)
      | some .enum => return .enum (← Checked.u16) (← Checked.u16)
      | some .classRef => return .classRef (← Checked.u16)
      | some .nested => return .nested (← AnnotationEntry.checkedWith inner)
      | some .array => return .array (← Checked.counted16 inner)
      | none => Checked.fail (.invalidTag tag start)

/-- Reads an element value that no other encloses. -/
def ElementValue.checkedOutermost : Checked PayloadFault ElementValue :=
  ElementValue.checked (maxElementLevels + 1) 0

/-- Reads an annotation that no element value encloses. -/
def AnnotationEntry.checked : Checked PayloadFault AnnotationEntry :=
  AnnotationEntry.checkedWith ElementValue.checkedOutermost

/-- Reads a target of the kind given. -/
def TargetForm.checked : TargetForm → Checked PayloadFault TypeTarget
  | .typeParameter => do return .typeParameter (← Checked.u8)
  | .supertype => do return .supertype (← Checked.u16)
  | .typeParameterBound => do return .typeParameterBound (← Checked.u8) (← Checked.u8)
  | .empty => return .empty
  | .formalParameter => do return .formalParameter (← Checked.u8)
  | .throws => do return .throws (← Checked.u16)
  | .localVariable => do return .localVariable (← Checked.counted16 LocalVariableRange.checked)
  | .exceptionParameter => do return .exceptionParameter (← Checked.u16)
  | .offset => do return .offset (← Checked.u16)
  | .typeArgument => do return .typeArgument (← Checked.u16) (← Checked.u8)

/-- Reads an annotation on a use of a type. -/
def TypeAnnotationEntry.checked : Checked PayloadFault TypeAnnotationEntry := do
  let start ← Checked.position
  let targetType ← Checked.u8
  match TargetForm.ofType? targetType with
  | none => Checked.fail (.invalidTag targetType start)
  | some form =>
    let target ← form.checked
    let path ← Checked.counted8 TypePathStep.checked
    let entry ← AnnotationEntry.checked
    return ⟨targetType, target, path, entry⟩

theorem AnnotationEntry.agrees_checkedWith {value : Checked PayloadFault ElementValue}
    {value' : Decoder PayloadFault ElementValue} (h : Agrees value value') :
    Agrees (checkedWith value) (decodeWith value') :=
  AgreesUpTo.u16.bind fun _ ↦
    (AgreesUpTo.counted16 (AgreesUpTo.u16.bind fun _ ↦ h.map _)).map _

/-- The depth and the levels that are left make up the limit, so a depth at which another value is
entered is below it. -/
theorem ElementValue.agrees_checked (levels depth : Nat) (h : depth + levels = maxElementLevels) :
    Agrees (checked (levels + 1) depth) (decode levels) := by
  induction levels generalizing depth with
  | zero =>
    refine AgreesUpTo.position.bind fun start ↦ ?_
    rw [if_pos (show maxElementLevels ≤ depth by omega)]
    exact .refuse rfl
  | succ levels ih =>
    have hlimit : maxElementLevels = 256 := rfl
    have hinner : Agrees (do checked (levels + 1) (← ofValue (add? 64 depth 1)))
        (decode levels) :=
      .ofValue_bind (add?_of_lt (by omega)) (ih (depth + 1) (by omega))
    refine AgreesUpTo.position.bind fun start ↦ ?_
    rw [if_neg (by omega)]
    refine AgreesUpTo.u8.bind fun tag ↦ ?_
    match ElementForm.ofTag? tag with
    | some .const | some .classRef => exact AgreesUpTo.u16.map _
    | some .enum => exact AgreesUpTo.u16.bind fun _ ↦ AgreesUpTo.u16.map _
    | some .nested => exact (AnnotationEntry.agrees_checkedWith hinner).map _
    | some .array => exact hinner.counted16.map _
    | none => exact .refuse rfl

theorem ElementValue.agrees_checkedOutermost :
    Agrees checkedOutermost (decode maxElementLevels) :=
  ElementValue.agrees_checked _ 0 (Nat.zero_add _)

theorem AnnotationEntry.agrees_checked : Agrees checked decode :=
  agrees_checkedWith ElementValue.agrees_checkedOutermost

theorem TargetForm.agrees_checked (form : TargetForm) : Agrees form.checked form.decode := by
  cases form with
  | typeParameter | formalParameter => exact AgreesUpTo.u8.map _
  | supertype | throws | exceptionParameter | offset => exact AgreesUpTo.u16.map _
  | typeParameterBound => exact AgreesUpTo.u8.bind fun _ ↦ AgreesUpTo.u8.map _
  | empty => exact .pure _
  | localVariable =>
    have hrange : Agrees LocalVariableRange.checked _ :=
      AgreesUpTo.u16.bind fun _ ↦ AgreesUpTo.u16.bind fun _ ↦ AgreesUpTo.u16.map _
    exact hrange.counted16.map _
  | typeArgument => exact AgreesUpTo.u16.bind fun _ ↦ AgreesUpTo.u8.map _

theorem TypeAnnotationEntry.agrees_checked : Agrees checked decode := by
  refine AgreesUpTo.position.bind fun start ↦ AgreesUpTo.u8.bind fun targetType ↦ ?_
  cases TargetForm.ofType? targetType with
  | none => exact .refuse rfl
  | some form =>
    have hstep : Agrees TypePathStep.checked _ := AgreesUpTo.u8.bind fun _ ↦ AgreesUpTo.u8.map _
    exact form.agrees_checked.bind fun _ ↦ hstep.counted8.bind fun _ ↦
      AnnotationEntry.agrees_checked.map _

/-! ### Payloads -/

/-- Reads the payload of an attribute of a known kind. -/
def AttributeKind.checked : AttributeKind → Checked PayloadFault Attribute
  | lineNumberTable => do
    return .lineNumberTable (.ofRows (← Checked.counted16 LineNumber.checked))
  | localVariableTable => do
    return .localVariableTable (← Checked.counted16 LocalVariable.checked)
  | localVariableTypeTable => do
    return .localVariableTypeTable (← Checked.counted16 LocalVariable.checked)
  | exceptions => do return .exceptions (← Checked.counted16 Checked.u16)
  | constantValue => do return .constantValue (← Checked.u16)
  | deprecated => return .deprecated
  | synthetic => return .synthetic
  | signature => do return .signature (← Checked.u16)
  | sourceFile => do return .sourceFile (← Checked.u16)
  | innerClasses => do return .innerClasses (← Checked.counted16 InnerClass.checked)
  | enclosingMethod => do return .enclosingMethod (← Checked.u16) (← Checked.u16)
  | bootstrapMethods => do return .bootstrapMethods (← Checked.counted16 BootstrapMethod.checked)
  | methodParameters => do return .methodParameters (← Checked.counted8 MethodParameter.checked)
  | annotations visible => do
    return .annotations visible (← Checked.counted16 AnnotationEntry.checked)
  | parameterAnnotations visible => do
    return .parameterAnnotations visible
      (← Checked.counted8 (Checked.counted16 AnnotationEntry.checked))
  | typeAnnotations visible => do
    return .typeAnnotations visible (← Checked.counted16 TypeAnnotationEntry.checked)
  | annotationDefault => do return .annotationDefault (← ElementValue.checkedOutermost)
  | stackMapTable => do return .stackMapTable (← Checked.counted16 StackMapFrame.checked)

theorem AttributeKind.agrees_checked (kind : AttributeKind) : Agrees kind.checked kind.decode := by
  cases kind with
  | lineNumberTable => exact LineNumber.agrees_checked.counted16.map _
  | localVariableTable | localVariableTypeTable =>
    exact LocalVariable.agrees_checked.counted16.map _
  | exceptions => exact (AgreesUpTo.counted16 AgreesUpTo.u16).map _
  | constantValue | signature | sourceFile => exact AgreesUpTo.u16.map _
  | deprecated | synthetic => exact .pure _
  | innerClasses => exact InnerClass.agrees_checked.counted16.map _
  | enclosingMethod => exact AgreesUpTo.u16.bind fun _ ↦ AgreesUpTo.u16.map _
  | bootstrapMethods => exact BootstrapMethod.agrees_checked.counted16.map _
  | methodParameters => exact MethodParameter.agrees_checked.counted8.map _
  | annotations => exact AnnotationEntry.agrees_checked.counted16.map _
  | parameterAnnotations => exact AnnotationEntry.agrees_checked.counted16.counted8.map _
  | typeAnnotations => exact TypeAnnotationEntry.agrees_checked.counted16.map _
  | annotationDefault => exact ElementValue.agrees_checkedOutermost.map _
  | stackMapTable => exact StackMapFrame.agrees_checked.counted16.map _

/-! ### Records -/

namespace AttributeHeader

/-- Reads the front of a record and resolves its name. -/
def checked (pool : ConstantPool) : Checked ClassFault AttributeHeader := do
  let offset ← Checked.position
  let nameIndex ← Checked.u16
  let length ← Checked.u32
  let name ← Checked.ofPool (pool.checkedUtf8? nameIndex)
  return ⟨offset, name, length⟩

/-- The fault of a record, from what went wrong in its payload. -/
def checkedFault? (header : AttributeHeader) : PayloadFault → Option ClassFault
  | .endOfData failure => do
    let consumed ← add? 64 header.length.toNat failure.wanted
    return .record (.sizeMismatch header.name header.offset header.length consumed)
  | .invalidTag tag offset => some (.record (.invalidTag header.name offset tag))
  | .tooDeep offset => some (.record (.tooDeep header.name offset maxElementLevels))
  | .other fault => some fault

/-- The attribute of a payload, which has to be used up by its structure. -/
def checkedInterpret? (header : AttributeHeader) (layout : Checked PayloadFault Attribute)
    (payload : Reader) : Option (Except ClassFault Attribute) := do
  let start ← payload.position?
  match ← layout payload with
  | (.error fault, _) => return .error (← header.checkedFault? fault)
  | (.ok value, left) =>
    if ← left.isEmpty? then return .ok value
    else
      let stop ← left.position?
      let consumed ← sub? stop start
      return .error
        (.record (.sizeMismatch header.name header.offset header.length consumed))

theorem agrees_checked (pool : ConstantPool) : Agrees (checked pool) (decode pool) := by
  refine AgreesUpTo.position.bind fun offset ↦ AgreesUpTo.u16.bind fun nameIndex ↦
    AgreesUpTo.u32.bind fun length ↦ ?_
  rw [pool.checkedUtf8?_eq nameIndex]
  exact (AgreesUpTo.ofPool _).map _

variable (header : AttributeHeader)

/-- The declared bytes and those that are missing are so few that their sum is a number of
64 bits. -/
theorem checkedFault?_eq {fault : PayloadFault} (few : missing fault < 2 ^ 32) :
    header.checkedFault? fault = some (header.fault fault) ∧
      missing (header.fault fault) < 2 ^ 32 := by
  cases fault with
  | endOfData failure =>
    have hlength := header.length.toNat_lt
    have hwanted : failure.wanted < 2 ^ 32 := few
    rw [checkedFault?, add?_of_lt (by omega)]
    exact ⟨rfl, Nat.two_pow_pos 32⟩
  | invalidTag | tooDeep => exact ⟨rfl, Nat.two_pow_pos 32⟩
  | other fault => exact ⟨rfl, few⟩

variable {layout : Checked PayloadFault Attribute} {layout' : Decoder PayloadFault Attribute}

/-- A structure ends behind where it starts, so its length is a difference of offsets. -/
theorem checkedInterpret?_eq (h : Agrees layout layout') {payload : Reader}
    (hpayload : payload.IsValid) :
    header.checkedInterpret? layout payload = some (header.interpret layout' payload.cursor) ∧
      ∀ fault, header.interpret layout' payload.cursor = .error fault → missing fault < 2 ^ 32 := by
  have hsame := h payload hpayload
  rw [checkedInterpret?, interpret, hpayload.position?_eq]
  simp only [Option.bind_eq_bind, Option.bind_some]
  generalize layout payload = outcome at hsame ⊢
  generalize layout' payload.cursor = outcome' at hsame ⊢
  cases hsame with
  | error few =>
    obtain ⟨hfault, hmissing⟩ := header.checkedFault?_eq few
    simp only [Option.bind_some, hfault]
    exact ⟨rfl, fun fault hresult ↦ Except.error.inj hresult ▸ hmissing⟩
  | @ok value _ left alike follows =>
    subst alike
    have hleft := follows.isValid hpayload
    simp only [Option.bind_some, hleft.isEmpty?_eq, hleft.position?_eq,
      sub?_of_le follows.position_le]
    cases left.cursor.isEmpty with
    | true => exact ⟨rfl, fun _ hresult ↦ nomatch hresult⟩
    | false =>
      refine ⟨rfl, fun fault hresult ↦ ?_⟩
      exact Except.error.inj hresult ▸ Nat.two_pow_pos 32

end AttributeHeader

/-- Reads the payload of a record by the layout given. A line table without that layout is kept as
bytes. -/
def checkedDelimited (header : AttributeHeader) (layout : Checked PayloadFault Attribute) :
    Checked ClassFault Attribute := do
  let payload ← Checked.window header.length.toNat
  let bytes ← ofValue payload.rest?
  let result ← ofValue (header.checkedInterpret? layout payload)
  match result with
  | .ok value => return value
  | .error fault =>
    if header.name = AttributeKind.lineNumberTable.name then return .unknown header.name bytes
    else Checked.fail fault

/-- Reads a record. The bodies of methods are read by the reading given, or refused where there is
none. -/
def checkedRecord (pool : ConstantPool) (body? : Option (Checked PayloadFault Code)) :
    Checked ClassFault Attribute := do
  let header ← AttributeHeader.checked pool
  if header.name = Code.attributeName then
    match body? with
    | none => Checked.fail (.record (.misplaced header.name header.offset Code.attributeName))
    | some body => checkedDelimited header (do return .code (← body))
  else
    match AttributeKind.ofName? header.name with
    | some kind => checkedDelimited header kind.checked
    | none => checkedDelimited header (do return .unknown header.name (← Checked.takeRest))

/-- Reads the attributes of a body of code, none of which is a body. -/
def Code.checkedAttributes (pool : ConstantPool) : Checked ClassFault (List Attribute) :=
  Checked.counted16 (checkedRecord pool none)

/-- Reads the body of a method. -/
def Code.checked (pool : ConstantPool) : Checked PayloadFault Code := do
  let maxStack ← Checked.u16
  let maxLocals ← Checked.u16
  let length ← Checked.u32
  let bytes ← Checked.take length.toNat
  let handlers ← Checked.counted16 ExceptionHandler.checked
  let attributes ← (Code.checkedAttributes pool).mapFault PayloadFault.ofClassFault
  return ⟨maxStack, maxLocals, bytes, handlers, attributes⟩

/-- Reads an attribute of a class, a field or a method. -/
def Attribute.checked (pool : ConstantPool) : Checked ClassFault Attribute :=
  checkedRecord pool (some (Code.checked pool))

/-- Reads the attributes of a class, a field or a method. -/
def Attribute.checkedTable (pool : ConstantPool) : Checked ClassFault (List Attribute) :=
  Checked.counted16 (Attribute.checked pool)

theorem agrees_checkedDelimited (header : AttributeHeader)
    {layout : Checked PayloadFault Attribute} {layout' : Decoder PayloadFault Attribute}
    (h : Agrees layout layout') :
    Agrees (checkedDelimited header layout) (decodeDelimited header layout') := by
  refine (AgreesUpTo.window header.length.toNat_lt).bind_related
    fun payload _ ⟨hpayload, heq⟩ ↦ heq ▸ ?_
  obtain ⟨hinterpret, hmissing⟩ := header.checkedInterpret?_eq h hpayload
  refine .ofValue_bind hpayload.rest?_eq (.ofValue_bind hinterpret ?_)
  cases hresult : header.interpret layout' payload.cursor with
  | ok value => exact .pure _
  | error fault => exact .ite (fun _ ↦ .pure _) fun _ ↦ .fail (hmissing fault hresult)

section

variable (pool : ConstantPool)

theorem agrees_checkedRecord {body? : Option (Checked PayloadFault Code)}
    {body'? : Option (Decoder PayloadFault Code)} (h : Option.Rel Agrees body? body'?) :
    Agrees (checkedRecord pool body?) (decodeRecord pool body'?) := by
  refine (AttributeHeader.agrees_checked pool).bind fun header ↦ .ite (fun _ ↦ ?_) fun _ ↦ ?_
  · cases h with
    | none => exact .refuse rfl
    | some h => exact agrees_checkedDelimited header (h.map _)
  · cases AttributeKind.ofName? header.name with
    | some kind => exact agrees_checkedDelimited header kind.agrees_checked
    | none => exact agrees_checkedDelimited header (AgreesUpTo.takeRest.map _)

/-- A record cut short inside a payload keeps the number of the bytes that are missing. -/
theorem missing_ofClassFault_le (fault : ClassFault) :
    missing (PayloadFault.ofClassFault fault) ≤ missing fault := by
  unfold PayloadFault.ofClassFault
  split <;> exact Nat.le_refl _

theorem Code.agrees_checked : Agrees (Code.checked pool) (Code.decode pool) :=
  AgreesUpTo.u16.bind fun _ ↦ AgreesUpTo.u16.bind fun _ ↦ AgreesUpTo.u32.bind fun length ↦
    (AgreesUpTo.take length.toNat_lt).bind fun _ ↦
      ExceptionHandler.agrees_checked.counted16.bind fun _ ↦
        ((agrees_checkedRecord pool .none).counted16.mapFault missing_ofClassFault_le).map _

theorem Attribute.agrees_checked : Agrees (Attribute.checked pool) (Attribute.decode pool) :=
  agrees_checkedRecord pool (.some (Code.agrees_checked pool))

/-- No operation fails while attributes are read. -/
theorem Attribute.agrees_checkedTable :
    Agrees (Attribute.checkedTable pool) (Attribute.decodeTable pool) :=
  (Attribute.agrees_checked pool).counted16

end

end MonitorAudit
