import MonitorAudit.ClassFile.ElementValue
import MonitorAudit.Proofs.Bytes.Format

/-!
# The bytes of annotations

`ElementShape inner` and `AnnotationShape inner` say which bytes are an element value and an
annotation, given which bytes are the element values inside it. `ElementBytes levels` ties the knot:
it is the layout of element values of which at most so many enclose each other, and
`AnnotationBytes` that of annotations with such values. The bytes that announce the form of a value,
or the kind of place that an annotation on a type targets, are listed for each form
(`ElementForm.tags`, `TargetForm.types`).

`ElementValue.reads_decode`, `AnnotationEntry.reads_decode` and `TypeAnnotationEntry.reads_decode`
say that values are read from these bytes and from no others.
-/

set_option autoImplicit false

namespace MonitorAudit

/-! ### Bytes that announce a form -/

/-- The tags of the element values of a form. -/
def ElementForm.tags : ElementForm → List UInt8
  | const => [0x42, 0x43, 0x44, 0x46, 0x49, 0x4A, 0x53, 0x5A, 0x73]
  | enum => [0x65]
  | classRef => [0x63]
  | nested => [0x40]
  | array => [0x5B]

/-- A tag announces the form among whose tags it is. -/
theorem ElementForm.ofTag?_eq_some_iff (tag : UInt8) (form : ElementForm) :
    ofTag? tag = some form ↔ tag ∈ form.tags := by
  have htag : (Char.ofNat tag.toNat).toNat = tag.toNat := by
    have hlt : tag.toNat < 256 := tag.toNat_lt
    rw [Char.ofNat, dif_pos (.inl (by omega))]
    rfl
  constructor
  · intro h
    unfold ofTag? at h
    split at h <;> cases h
    all_goals
      rename_i hchar
      rw [hchar] at htag
      rw [← UInt8.ofNat_toNat (x := tag), ← htag]
      decide
  · intro h
    have hall : form.tags.all (fun tag ↦ ofTag? tag = some form) = true := by
      cases form <;> decide
    exact of_decide_eq_true (List.all_eq_true.mp hall tag h)

/-- The bytes that announce a kind of place. -/
def TargetForm.types : TargetForm → List UInt8
  | typeParameter => [0x00, 0x01]
  | supertype => [0x10]
  | typeParameterBound => [0x11, 0x12]
  | empty => [0x13, 0x14, 0x15]
  | formalParameter => [0x16]
  | throws => [0x17]
  | localVariable => [0x40, 0x41]
  | exceptionParameter => [0x42]
  | offset => [0x43, 0x44, 0x45, 0x46]
  | typeArgument => [0x47, 0x48, 0x49, 0x4A, 0x4B]

/-- A byte announces the kind of place among whose bytes it is. -/
theorem TargetForm.ofType?_eq_some_iff (targetType : UInt8) (form : TargetForm) :
    ofType? targetType = some form ↔ targetType ∈ form.types := by
  constructor
  · intro h
    unfold ofType? at h
    split at h <;> cases h
    all_goals
      rename_i htype
      rw [← UInt8.ofNat_toNat (x := targetType), htype]
      decide
  · intro h
    have hall : form.types.all (fun targetType ↦ ofType? targetType = some form) = true := by
      cases form <;> decide
    exact of_decide_eq_true (List.all_eq_true.mp hall targetType h)

/-! ### The layout of bytes -/

/-- Which bytes are an element of an annotation with its value. -/
inductive PairShape (inner : List UInt8 → ElementValue → Prop) : List UInt8 → ElementPair → Prop
  | intro {bytes : List UInt8} {value : ElementValue} (name : UInt16) (behind : inner bytes value) :
      PairShape inner (word16 name ++ bytes) ⟨name, value⟩

/-- Which bytes are an annotation, given which are the values of its elements. -/
inductive AnnotationShape (inner : List UInt8 → ElementValue → Prop) :
    List UInt8 → AnnotationEntry → Prop
  | intro {bytes : List UInt8} {elements : List ElementPair} (type : UInt16)
      (table : Table16 (PairShape inner) bytes elements) :
      AnnotationShape inner (word16 type ++ bytes) ⟨type, elements⟩

/-- Which bytes stand behind the tag of a form, and which element value they make, given which bytes
are the values inside it. -/
inductive ElementFields (inner : List UInt8 → ElementValue → Prop) (tag : UInt8) :
    ElementForm → List UInt8 → ElementValue → Prop
  | const (index : UInt16) : ElementFields inner tag .const (word16 index) (.const tag index)
  | enum (typeName constName : UInt16) :
    ElementFields inner tag .enum (word16 typeName ++ word16 constName) (.enum typeName constName)
  | classRef (index : UInt16) : ElementFields inner tag .classRef (word16 index) (.classRef index)
  | nested {bytes : List UInt8} {entry : AnnotationEntry}
      (behind : AnnotationShape inner bytes entry) :
      ElementFields inner tag .nested bytes (.nested entry)
  | array {bytes : List UInt8} {values : List ElementValue} (table : Table16 inner bytes values) :
    ElementFields inner tag .array bytes (.array values)

/-- Which bytes are an element value, given which bytes are the values inside it. -/
inductive ElementShape (inner : List UInt8 → ElementValue → Prop) :
    List UInt8 → ElementValue → Prop
  | intro {tag : UInt8} {form : ElementForm} {bytes : List UInt8} {value : ElementValue}
      (announced : tag ∈ form.tags) (behind : ElementFields inner tag form bytes value) :
      ElementShape inner (tag :: bytes) value

/-- Which bytes are an element value in which at most so many values enclose each other. -/
def ElementBytes : Nat → List UInt8 → ElementValue → Prop
  | 0 => fun _ _ ↦ False
  | levels + 1 => ElementShape (ElementBytes levels)

/-- Which bytes are an annotation whose element values do not nest too deep. -/
def AnnotationBytes : List UInt8 → AnnotationEntry → Prop :=
  AnnotationShape (ElementBytes maxElementLevels)

/-- The bytes of a stretch of code in which a local variable has a slot. -/
def LocalVariableRange.encode (range : LocalVariableRange) : List UInt8 :=
  word16 range.startPc ++ (word16 range.length ++ word16 range.slot)

/-- The bytes of a step into a part of a type. -/
def TypePathStep.encode (step : TypePathStep) : List UInt8 := [step.kind, step.argumentIndex]

/-- Which bytes are which place of a kind. -/
inductive TargetBytes : TargetForm → List UInt8 → TypeTarget → Prop
  | typeParameter (index : UInt8) : TargetBytes .typeParameter [index] (.typeParameter index)
  | supertype (index : UInt16) : TargetBytes .supertype (word16 index) (.supertype index)
  | typeParameterBound (parameter bound : UInt8) :
    TargetBytes .typeParameterBound [parameter, bound] (.typeParameterBound parameter bound)
  | empty : TargetBytes .empty [] .empty
  | formalParameter (index : UInt8) : TargetBytes .formalParameter [index] (.formalParameter index)
  | throws (index : UInt16) : TargetBytes .throws (word16 index) (.throws index)
  | localVariable {bytes : List UInt8} {ranges : List LocalVariableRange}
      (table : Table16 (fun row range ↦ row = range.encode) bytes ranges) :
      TargetBytes .localVariable bytes (.localVariable ranges)
  | exceptionParameter (handler : UInt16) :
    TargetBytes .exceptionParameter (word16 handler) (.exceptionParameter handler)
  | offset (start : UInt16) : TargetBytes .offset (word16 start) (.offset start)
  | typeArgument (offset : UInt16) (argument : UInt8) :
    TargetBytes .typeArgument (word16 offset ++ [argument]) (.typeArgument offset argument)

/-- Which bytes are an annotation on a use of a type. -/
inductive TypeAnnotationBytes : List UInt8 → TypeAnnotationEntry → Prop
  | intro {targetType : UInt8} {form : TargetForm} {targetBytes pathBytes entryBytes : List UInt8}
      {target : TypeTarget} {path : List TypePathStep} {entry : AnnotationEntry}
      (announced : targetType ∈ form.types) (place : TargetBytes form targetBytes target)
      (steps : Table8 (fun row step ↦ row = step.encode) pathBytes path)
      (behind : AnnotationBytes entryBytes entry) :
      TypeAnnotationBytes (targetType :: (targetBytes ++ (pathBytes ++ entryBytes)))
        ⟨targetType, target, path, entry⟩

open Decoder (Reads)

/-! ### Annotations and element values -/

/-- An annotation is read as its shape has it where the values of its elements are. -/
theorem AnnotationEntry.reads_decodeWith {value : Decoder PayloadFault ElementValue}
    {inner : List UInt8 → ElementValue → Prop} (hvalue : Reads value fun _ ↦ inner) :
    Reads (decodeWith value) fun _ ↦ AnnotationShape inner := by
  have hpair : Reads (do
      let name ← Decoder.u16
      return ⟨name, ← value⟩ : Decoder PayloadFault ElementPair) fun _ ↦ PairShape inner := by
    refine (Reads.u16.bind fun name ↦ hvalue.bind_pure _).congr fun position bytes pair ↦ ?_
    constructor
    · rintro ⟨name, _, rest, rfl, rfl, found, hfound, rfl⟩
      exact .intro name hfound
    · rintro ⟨name, hfound⟩
      exact ⟨name, _, _, rfl, rfl, _, hfound, rfl⟩
  refine (Reads.u16.bind fun type ↦ hpair.counted16.bind_pure _).congr
    fun position bytes entry ↦ ?_
  constructor
  · rintro ⟨type, _, table, rfl, rfl, elements, htable, rfl⟩
    exact .intro type htable
  · rintro ⟨type, htable⟩
    exact ⟨type, _, _, rfl, rfl, _, htable, rfl⟩

/-- An element value of at most so many levels is read from its bytes. -/
theorem ElementValue.reads_decode (levels : Nat) :
    Reads (decode levels) fun _ ↦ ElementBytes levels := by
  induction levels with
  | zero => exact Reads.position_bind fun start ↦ Reads.fail _
  | succ levels ih =>
    refine (Reads.position_bind fun start ↦ Reads.u8.bind
      (?behind : ∀ tag, Reads _ fun _ bytes value ↦ ∃ form,
        ElementForm.ofTag? tag = some form ∧
          ElementFields (ElementBytes levels) tag form bytes value)).congr
      fun position bytes value ↦ ?bytes
    case behind =>
      intro tag
      generalize ElementForm.ofTag? tag = known
      rcases known with _ | form
      · exact (Reads.fail _).congr fun position bytes value ↦ by simp
      · cases form with
        | const =>
          refine (Reads.u16.bind_pure _).congr fun position bytes value ↦ ⟨?_, ?_⟩
          · rintro ⟨index, rfl, rfl⟩
            exact ⟨_, rfl, .const index⟩
          · rintro ⟨_, ⟨⟩, ⟨⟩⟩
            exact ⟨_, rfl, rfl⟩
        | enum =>
          refine (Reads.u16.bind fun typeName ↦ Reads.u16.bind_pure _).congr
            fun position bytes value ↦ ⟨?_, ?_⟩
          · rintro ⟨typeName, _, _, rfl, rfl, constName, rfl, rfl⟩
            exact ⟨_, rfl, .enum typeName constName⟩
          · rintro ⟨_, ⟨⟩, ⟨⟩⟩
            exact ⟨_, _, _, rfl, rfl, _, rfl, rfl⟩
        | classRef =>
          refine (Reads.u16.bind_pure _).congr fun position bytes value ↦ ⟨?_, ?_⟩
          · rintro ⟨index, rfl, rfl⟩
            exact ⟨_, rfl, .classRef index⟩
          · rintro ⟨_, ⟨⟩, ⟨⟩⟩
            exact ⟨_, rfl, rfl⟩
        | nested =>
          refine ((AnnotationEntry.reads_decodeWith ih).bind_pure _).congr
            fun position bytes value ↦ ⟨?_, ?_⟩
          · rintro ⟨entry, hentry, rfl⟩
            exact ⟨_, rfl, .nested hentry⟩
          · rintro ⟨_, ⟨⟩, hfields⟩
            cases hfields with
            | nested hentry => exact ⟨_, hentry, rfl⟩
        | array =>
          refine (ih.counted16.bind_pure _).congr fun position bytes value ↦ ⟨?_, ?_⟩
          · rintro ⟨values, htable, rfl⟩
            exact ⟨_, rfl, .array htable⟩
          · rintro ⟨_, ⟨⟩, hfields⟩
            cases hfields with
            | array htable => exact ⟨_, htable, rfl⟩
    case bytes =>
      constructor
      · rintro ⟨tag, _, rest, rfl, rfl, form, hform, hfields⟩
        exact .intro ((ElementForm.ofTag?_eq_some_iff tag form).mp hform) hfields
      · rintro ⟨htag, hfields⟩
        exact ⟨_, [_], _, rfl, rfl, _, (ElementForm.ofTag?_eq_some_iff _ _).mpr htag, hfields⟩

/-- An annotation that no element value encloses is read from its bytes. -/
theorem AnnotationEntry.reads_decode : Reads decode fun _ ↦ AnnotationBytes :=
  reads_decodeWith (ElementValue.reads_decode maxElementLevels)

/-! ### Annotations on types -/

/-- A stretch of code for a local variable is read from its bytes. -/
theorem LocalVariableRange.reads_decode :
    Reads (do return ⟨← Decoder.u16, ← Decoder.u16, ← Decoder.u16⟩ :
      Decoder PayloadFault LocalVariableRange) fun _ bytes range ↦ bytes = range.encode := by
  refine (Reads.u16.bind fun startPc ↦ Reads.u16.bind fun length ↦ Reads.u16.bind_pure _).congr
    fun position bytes range ↦ ?_
  constructor
  · rintro ⟨startPc, _, _, rfl, rfl, length, _, _, rfl, rfl, slot, rfl, rfl⟩
    rfl
  · rintro rfl
    exact ⟨_, _, _, rfl, rfl, _, _, _, rfl, rfl, _, rfl, rfl⟩

/-- A step into a part of a type is read from its bytes. -/
theorem TypePathStep.reads_decode :
    Reads (do return ⟨← Decoder.u8, ← Decoder.u8⟩ : Decoder PayloadFault TypePathStep)
      fun _ bytes step ↦ bytes = step.encode := by
  refine (Reads.u8.bind fun kind ↦ Reads.u8.bind_pure _).congr fun position bytes step ↦ ?_
  constructor
  · rintro ⟨kind, _, _, rfl, rfl, argumentIndex, rfl, rfl⟩
    rfl
  · rintro rfl
    exact ⟨_, [_], [_], rfl, rfl, _, rfl, rfl⟩

/-- A place of a kind is read from its bytes. -/
theorem TargetForm.reads_decode (form : TargetForm) :
    Reads form.decode fun _ ↦ TargetBytes form := by
  cases form with
  | typeParameter | formalParameter =>
    refine (Reads.u8.bind_pure _).congr fun position bytes target ↦ ⟨?_, ?_⟩
    · rintro ⟨index, rfl, rfl⟩
      constructor
    · rintro ⟨⟩
      exact ⟨_, rfl, rfl⟩
  | supertype | throws | exceptionParameter | offset =>
    refine (Reads.u16.bind_pure _).congr fun position bytes target ↦ ⟨?_, ?_⟩
    · rintro ⟨index, rfl, rfl⟩
      constructor
    · rintro ⟨⟩
      exact ⟨_, rfl, rfl⟩
  | typeParameterBound =>
    refine (Reads.u8.bind fun parameter ↦ Reads.u8.bind_pure _).congr
      fun position bytes target ↦ ⟨?_, ?_⟩
    · rintro ⟨parameter, _, _, rfl, rfl, bound, rfl, rfl⟩
      exact .typeParameterBound parameter bound
    · rintro ⟨⟩
      exact ⟨_, [_], [_], rfl, rfl, _, rfl, rfl⟩
  | empty =>
    refine (Reads.pure _).congr fun position bytes target ↦ ⟨?_, ?_⟩
    · rintro ⟨rfl, rfl⟩
      exact .empty
    · rintro ⟨⟩
      exact ⟨rfl, rfl⟩
  | localVariable =>
    refine (LocalVariableRange.reads_decode.counted16.bind_pure _).congr
      fun position bytes target ↦ ⟨?_, ?_⟩
    · rintro ⟨ranges, htable, rfl⟩
      exact .localVariable htable
    · intro htarget
      cases htarget with
      | localVariable htable => exact ⟨_, htable, rfl⟩
  | typeArgument =>
    refine (Reads.u16.bind fun offset ↦ Reads.u8.bind_pure _).congr
      fun position bytes target ↦ ⟨?_, ?_⟩
    · rintro ⟨offset, _, _, rfl, rfl, argument, rfl, rfl⟩
      exact .typeArgument offset argument
    · rintro ⟨⟩
      exact ⟨_, _, _, rfl, rfl, _, rfl, rfl⟩

/-- An annotation on a use of a type is read from its bytes. -/
theorem TypeAnnotationEntry.reads_decode : Reads decode fun _ ↦ TypeAnnotationBytes := by
  refine (Reads.position_bind fun start ↦ Reads.u8.bind
    (?behind : ∀ targetType, Reads _ fun _ bytes value ↦
      TypeAnnotationBytes (targetType :: bytes) value)).congr fun position bytes value ↦ ?bytes
  case behind =>
    intro targetType
    cases hform : TargetForm.ofType? targetType with
    | none =>
      refine (Reads.fail _).congr fun position bytes value ↦ ⟨False.elim, ?_⟩
      rintro ⟨hannounced, -, -, -⟩
      rw [← TargetForm.ofType?_eq_some_iff, hform] at hannounced
      simp at hannounced
    | some form =>
      refine (form.reads_decode.bind fun target ↦ TypePathStep.reads_decode.counted8.bind
        fun path ↦ AnnotationEntry.reads_decode.bind_pure _).congr fun position bytes value ↦ ?_
      constructor
      · rintro ⟨target, _, _, rfl, htarget, path, _, _, rfl, hpath, entry, hentry, rfl⟩
        exact .intro ((TargetForm.ofType?_eq_some_iff targetType form).mp hform) htarget hpath
          hentry
      · rintro ⟨hannounced, htarget, hpath, hentry⟩
        rw [← TargetForm.ofType?_eq_some_iff, hform] at hannounced
        cases hannounced
        exact ⟨_, _, _, rfl, htarget, _, _, _, rfl, hpath, _, hentry, rfl⟩
  case bytes =>
    constructor
    · rintro ⟨targetType, _, rest, rfl, rfl, hentry⟩
      exact hentry
    · intro hentry
      cases bytes with
      | nil => cases hentry
      | cons targetType rest => exact ⟨targetType, [targetType], rest, rfl, rfl, hentry⟩

end MonitorAudit
