import MonitorAudit.Proofs.Bytes.Resumption
import MonitorAudit.Proofs.ClassFile.Reach

/-!
# Payloads that are read as from a stream

A payload of a known kind, and a body of code up to its attributes, are read in parts of a fixed
size, tables of parts, and tags that say which parts follow. A tag that nothing has, and an element
value that is nested too deep, are refused without asking for bytes. So these decoders are
`Resumable`: what they are short of is what is missing of one read
(`AttributeKind.resumable_decode`, `Code.resumable_decodeFront`).
-/

set_option autoImplicit false

namespace MonitorAudit

open Decoder (Resumable)

instance : ToEndOfData PayloadFault where
  endOfData?
    | .endOfData failure => some failure
    | _ => none

instance : LawfulEndOfData PayloadFault := ⟨fun _ ↦ rfl⟩

@[simp] theorem PayloadFault.endOfData?_eq_some_iff (fault : PayloadFault) (failure : EndOfData) :
    endOfData? fault = some failure ↔ fault = .endOfData failure := by
  cases fault <;> simp [endOfData?]

/-! ### Annotations and frames -/

theorem AnnotationEntry.resumable_decodeWith {inner : Decoder PayloadFault ElementValue}
    (h : Resumable inner) : Resumable (decodeWith inner) :=
  .bind .u16 fun _ ↦ .map (.counted16 (.bind .u16 fun _ ↦ h.map _)) _

theorem ElementValue.resumable_decode (levels : Nat) : Resumable (decode levels) := by
  induction levels with
  | zero => exact .bind .position fun _ ↦ .fail rfl
  | succ levels ih =>
    refine .bind .position fun start ↦ .bind .u8 fun tag ↦ ?_
    cases ElementForm.ofTag? tag with
    | none => exact .fail rfl
    | some form =>
      cases form with
      | const | classRef => exact .map .u16 _
      | enum => exact .bind .u16 fun _ ↦ .map .u16 _
      | nested => exact .map (AnnotationEntry.resumable_decodeWith ih) _
      | array => exact .map (.counted16 ih) _

theorem AnnotationEntry.resumable_decode : Resumable decode :=
  resumable_decodeWith (ElementValue.resumable_decode maxElementLevels)

theorem TargetForm.resumable_decode (form : TargetForm) : Resumable form.decode := by
  cases form with
  | empty => exact .pure _
  | typeParameter | formalParameter => exact .map .u8 _
  | typeParameterBound => exact .bind .u8 fun _ ↦ .map .u8 _
  | typeArgument => exact .bind .u16 fun _ ↦ .map .u8 _
  | localVariable =>
    exact .map (.counted16 (.bind .u16 fun _ ↦ .bind .u16 fun _ ↦ .map .u16 _)) _
  | _ => exact .map .u16 _

theorem TypeAnnotationEntry.resumable_decode : Resumable decode := by
  refine .bind .position fun start ↦ .bind .u8 fun targetType ↦ ?_
  cases TargetForm.ofType? targetType with
  | none => exact .fail rfl
  | some form =>
    have hpath : Resumable (Decoder.counted8 do
        return (⟨← Decoder.u8, ← Decoder.u8⟩ : TypePathStep) : Decoder PayloadFault _) :=
      .counted8 (.bind .u8 fun _ ↦ .map .u8 _)
    exact .bind form.resumable_decode fun _ ↦ .bind hpath fun _ ↦
      .map AnnotationEntry.resumable_decode _

theorem VerificationType.resumable_decode : Resumable decode := by
  refine .bind .position fun start ↦ .bind .u8 fun tag ↦ ?_
  split
  case h_8 | h_9 => exact .map .u16 _
  case h_10 => exact .fail rfl
  all_goals exact .pure _

theorem StackMapFrame.resumable_decode : Resumable decode := by
  have htype := VerificationType.resumable_decode
  refine .bind .position fun start ↦ .bind .u8 fun number ↦ ?_
  exact .ite (.pure _) <|
    .ite (htype.map _) <|
    .ite (.fail rfl) <|
    .ite (.bind .u16 fun _ ↦ htype.map _) <|
    .ite (.map .u16 _) <|
    .ite (.map .u16 _) <|
    .ite (.bind .u16 fun _ ↦ (htype.times _).map _) <|
    .bind .u16 fun _ ↦ .bind (.counted16 htype) fun _ ↦ .map (.counted16 htype) _

/-! ### Rows of tables -/

theorem LineNumber.resumable_decode : Resumable decode :=
  .bind .u16 fun _ ↦ .map .u16 _

theorem LocalVariable.resumable_decode : Resumable decode :=
  .bind .u16 fun _ ↦ .bind .u16 fun _ ↦ .bind .u16 fun _ ↦ .bind .u16 fun _ ↦ .map .u16 _

theorem InnerClass.resumable_decode : Resumable decode :=
  .bind .u16 fun _ ↦ .bind .u16 fun _ ↦ .bind .u16 fun _ ↦ .map .u16 _

theorem BootstrapMethod.resumable_decode : Resumable decode :=
  .bind .u16 fun _ ↦ .map (.counted16 .u16) _

theorem MethodParameter.resumable_decode : Resumable decode :=
  .bind .u16 fun _ ↦ .map .u16 _

theorem ExceptionHandler.resumable_decode : Resumable decode :=
  .bind .u16 fun _ ↦ .bind .u16 fun _ ↦ .bind .u16 fun _ ↦ .map .u16 _

/-! ### Payloads -/

/-- The payload of a known kind is read as from a stream. -/
theorem AttributeKind.resumable_decode (kind : AttributeKind) : Resumable kind.decode := by
  cases kind with
  | deprecated | synthetic => exact .pure _
  | constantValue | signature | sourceFile => exact .map .u16 _
  | enclosingMethod => exact .bind .u16 fun _ ↦ .map .u16 _
  | lineNumberTable => exact .map (.counted16 LineNumber.resumable_decode) _
  | localVariableTable | localVariableTypeTable =>
    exact .map (.counted16 LocalVariable.resumable_decode) _
  | exceptions => exact .map (.counted16 .u16) _
  | innerClasses => exact .map (.counted16 InnerClass.resumable_decode) _
  | bootstrapMethods => exact .map (.counted16 BootstrapMethod.resumable_decode) _
  | methodParameters => exact .map (.counted8 MethodParameter.resumable_decode) _
  | annotations visible => exact .map (.counted16 AnnotationEntry.resumable_decode) _
  | parameterAnnotations visible =>
    exact .map (.counted8 (.counted16 AnnotationEntry.resumable_decode)) _
  | typeAnnotations visible => exact .map (.counted16 TypeAnnotationEntry.resumable_decode) _
  | annotationDefault => exact .map (ElementValue.resumable_decode maxElementLevels) _
  | stackMapTable => exact .map (.counted16 StackMapFrame.resumable_decode) _

/-- A body of code is read as from a stream up to its attributes. -/
theorem Code.resumable_decodeFront : Resumable decodeFront :=
  .bind .u16 fun _ ↦ .bind .u16 fun _ ↦ .bind .u32 fun length ↦ .bind (.take length.toNat) fun _ ↦
    .map (.counted16 ExceptionHandler.resumable_decode) _

end MonitorAudit
