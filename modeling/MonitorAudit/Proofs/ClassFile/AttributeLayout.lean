import MonitorAudit.ClassFile.AttributeRecord
import MonitorAudit.Proofs.ClassFile.AnnotationLayout
import MonitorAudit.Proofs.ClassFile.FrameLayout

/-!
# The bytes of attribute records

`PayloadBytes kind` says which bytes are the payload of an attribute of a known kind, and
`NamedPayload body` which are the payload of an attribute by its name, given which bytes are the
body of a method. `RecordBytes pool body` puts the index of the name and the length of the payload
in front. The records inside a body are those in which nothing is a body, so a body (`BodyBytes`)
and the records of a class, a field or a method (`AttributeBytes`) are defined without recursion.

`Attribute.reads_decode` says that a record is read from these bytes and from no others, wherever
they stand and whatever follows them.
-/

set_option autoImplicit false

namespace MonitorAudit

/-! ### Rows of tables -/

/-- The bytes of a row of a line table. -/
def LineNumber.encode (row : LineNumber) : List UInt8 := word16 row.startPc ++ word16 row.line

/-- The bytes of a row of a table of local variables. -/
def LocalVariable.encode (row : LocalVariable) : List UInt8 :=
  word16 row.startPc ++ (word16 row.length ++
    (word16 row.nameIndex ++ (word16 row.descriptorIndex ++ word16 row.slot)))

/-- The bytes of a row of a table of inner classes. -/
def InnerClass.encode (row : InnerClass) : List UInt8 :=
  word16 row.innerIndex ++ (word16 row.outerIndex ++
    (word16 row.nameIndex ++ word16 row.accessFlags))

/-- The bytes of a formal parameter. -/
def MethodParameter.encode (row : MethodParameter) : List UInt8 :=
  word16 row.nameIndex ++ word16 row.accessFlags

/-- The bytes of an exception handler. -/
def ExceptionHandler.encode (row : ExceptionHandler) : List UInt8 :=
  word16 row.startPc ++ (word16 row.endPc ++ (word16 row.handlerPc ++ word16 row.catchType))

/-- Which bytes are a method that links a dynamic call site. -/
inductive BootstrapBytes : List UInt8 → BootstrapMethod → Prop
  | intro {bytes : List UInt8} {arguments : List UInt16} (method : UInt16)
      (table : Table16 (fun row index ↦ row = word16 index) bytes arguments) :
      BootstrapBytes (word16 method ++ bytes) ⟨method, arguments⟩

/-! ### Payloads -/

/-- Which bytes are the payload of an attribute of a kind. The rows of a line table may be in any
order in the bytes. -/
inductive PayloadBytes : AttributeKind → List UInt8 → Attribute → Prop
  | lineNumberTable {bytes : List UInt8} {rows : List LineNumber}
      (table : Table16 (fun row line ↦ row = LineNumber.encode line) bytes rows) :
      PayloadBytes .lineNumberTable bytes (.lineNumberTable (.ofRows rows))
  | localVariableTable {bytes : List UInt8} {rows : List LocalVariable}
      (table : Table16 (fun row slot ↦ row = LocalVariable.encode slot) bytes rows) :
      PayloadBytes .localVariableTable bytes (.localVariableTable rows)
  | localVariableTypeTable {bytes : List UInt8} {rows : List LocalVariable}
      (table : Table16 (fun row slot ↦ row = LocalVariable.encode slot) bytes rows) :
      PayloadBytes .localVariableTypeTable bytes (.localVariableTypeTable rows)
  | exceptions {bytes : List UInt8} {classes : List UInt16}
      (table : Table16 (fun row index ↦ row = word16 index) bytes classes) :
      PayloadBytes .exceptions bytes (.exceptions classes)
  | constantValue (index : UInt16) :
    PayloadBytes .constantValue (word16 index) (.constantValue index)
  | deprecated : PayloadBytes .deprecated [] .deprecated
  | synthetic : PayloadBytes .synthetic [] .synthetic
  | signature (index : UInt16) : PayloadBytes .signature (word16 index) (.signature index)
  | sourceFile (index : UInt16) : PayloadBytes .sourceFile (word16 index) (.sourceFile index)
  | innerClasses {bytes : List UInt8} {classes : List InnerClass}
      (table : Table16 (fun row inner ↦ row = InnerClass.encode inner) bytes classes) :
      PayloadBytes .innerClasses bytes (.innerClasses classes)
  | enclosingMethod (owner method : UInt16) :
    PayloadBytes .enclosingMethod (word16 owner ++ word16 method) (.enclosingMethod owner method)
  | bootstrapMethods {bytes : List UInt8} {methods : List BootstrapMethod}
      (table : Table16 BootstrapBytes bytes methods) :
      PayloadBytes .bootstrapMethods bytes (.bootstrapMethods methods)
  | methodParameters {bytes : List UInt8} {parameters : List MethodParameter}
      (table : Table8 (fun row parameter ↦ row = MethodParameter.encode parameter)
        bytes parameters) :
      PayloadBytes .methodParameters bytes (.methodParameters parameters)
  | annotations {visible : Bool} {bytes : List UInt8} {entries : List AnnotationEntry}
      (table : Table16 AnnotationBytes bytes entries) :
      PayloadBytes (.annotations visible) bytes (.annotations visible entries)
  | parameterAnnotations {visible : Bool} {bytes : List UInt8}
      {parameters : List (List AnnotationEntry)}
      (table : Table8 (Table16 AnnotationBytes) bytes parameters) :
      PayloadBytes (.parameterAnnotations visible) bytes (.parameterAnnotations visible parameters)
  | typeAnnotations {visible : Bool} {bytes : List UInt8} {entries : List TypeAnnotationEntry}
      (table : Table16 TypeAnnotationBytes bytes entries) :
      PayloadBytes (.typeAnnotations visible) bytes (.typeAnnotations visible entries)
  | annotationDefault {bytes : List UInt8} {value : ElementValue}
      (behind : ElementBytes maxElementLevels bytes value) :
      PayloadBytes .annotationDefault bytes (.annotationDefault value)
  | stackMapTable {bytes : List UInt8} {frames : List StackMapFrame}
      (table : Table16 FrameBytes bytes frames) :
      PayloadBytes .stackMapTable bytes (.stackMapTable frames)

/-- Which bytes are the payload of an attribute of a name, given which bytes are the body of a
method. A line table that is none is kept as bytes. -/
inductive NamedPayload (body : List UInt8 → Code → Prop) : String → List UInt8 → Attribute → Prop
  | code {payload : List UInt8} {code : Code} (behind : body payload code) :
    NamedPayload body Code.attributeName payload (.code code)
  | known {kind : AttributeKind} {payload : List UInt8} {value : Attribute}
      (behind : PayloadBytes kind payload value) : NamedPayload body kind.name payload value
  | keptLines {payload : List UInt8}
      (unreadable : ∀ value, ¬ PayloadBytes .lineNumberTable payload value) :
      NamedPayload body AttributeKind.lineNumberTable.name payload
        (.unknown AttributeKind.lineNumberTable.name payload)
  | unknown {name : String} {payload : List UInt8} (name_ne : name ≠ Code.attributeName)
      (no_kind : AttributeKind.ofName? name = none) :
      NamedPayload body name payload (.unknown name payload)

/-! ### Records -/

/-- Which bytes are a record of an attribute, given which bytes are the body of a method. -/
inductive RecordBytes (pool : ConstantPool) (body : List UInt8 → Code → Prop) :
    List UInt8 → Attribute → Prop
  | intro {nameIndex : UInt16} {length : UInt32} {name : String} {payload : List UInt8}
      {value : Attribute} (resolved : pool.utf8? nameIndex = .ok name)
      (length_eq : payload.length = length.toNat) (behind : NamedPayload body name payload value) :
      RecordBytes pool body (word16 nameIndex ++ (word32 length ++ payload)) value

/-- Which bytes are the body of a method. None of the records inside it is a body. -/
inductive BodyBytes (pool : ConstantPool) : List UInt8 → Code → Prop
  | intro {maxStack maxLocals : UInt16} {length : UInt32}
      {code handlersBytes attributesBytes : List UInt8} {handlers : List ExceptionHandler}
      {attributes : List Attribute} (length_eq : code.length = length.toNat)
      (handlersTable : Table16 (fun row handler ↦ row = ExceptionHandler.encode handler)
        handlersBytes handlers)
      (attributesTable : Table16 (RecordBytes pool fun _ _ ↦ False) attributesBytes attributes) :
      BodyBytes pool
        (word16 maxStack ++ (word16 maxLocals ++ (word32 length ++ (code ++
          (handlersBytes ++ attributesBytes)))))
        ⟨maxStack, maxLocals, code, handlers, attributes⟩

/-- Which bytes are a record of an attribute of a class, a field or a method. -/
def AttributeBytes (pool : ConstantPool) : List UInt8 → Attribute → Prop :=
  RecordBytes pool (BodyBytes pool)

open Decoder (Reads)

/-! ### Reading rows -/

theorem LineNumber.reads_decode : Reads decode fun _ bytes row ↦ bytes = row.encode := by
  refine (Reads.u16.bind fun startPc ↦ Reads.u16.bind_pure _).congr fun position bytes row ↦ ?_
  constructor
  · rintro ⟨startPc, _, _, rfl, rfl, line, rfl, rfl⟩
    rfl
  · rintro rfl
    exact ⟨_, _, _, rfl, rfl, _, rfl, rfl⟩

theorem LocalVariable.reads_decode : Reads decode fun _ bytes row ↦ bytes = row.encode := by
  refine (Reads.u16.bind fun startPc ↦ Reads.u16.bind fun length ↦ Reads.u16.bind fun nameIndex ↦
    Reads.u16.bind fun descriptorIndex ↦ Reads.u16.bind_pure _).congr fun position bytes row ↦ ?_
  constructor
  · rintro ⟨startPc, _, _, rfl, rfl, length, _, _, rfl, rfl, nameIndex, _, _, rfl, rfl,
      descriptorIndex, _, _, rfl, rfl, slot, rfl, rfl⟩
    rfl
  · rintro rfl
    exact ⟨_, _, _, rfl, rfl, _, _, _, rfl, rfl, _, _, _, rfl, rfl, _, _, _, rfl, rfl, _, rfl, rfl⟩

theorem InnerClass.reads_decode : Reads decode fun _ bytes row ↦ bytes = row.encode := by
  refine (Reads.u16.bind fun innerIndex ↦ Reads.u16.bind fun outerIndex ↦
    Reads.u16.bind fun nameIndex ↦ Reads.u16.bind_pure _).congr fun position bytes row ↦ ?_
  constructor
  · rintro ⟨innerIndex, _, _, rfl, rfl, outerIndex, _, _, rfl, rfl, nameIndex, _, _, rfl, rfl,
      accessFlags, rfl, rfl⟩
    rfl
  · rintro rfl
    exact ⟨_, _, _, rfl, rfl, _, _, _, rfl, rfl, _, _, _, rfl, rfl, _, rfl, rfl⟩

theorem MethodParameter.reads_decode : Reads decode fun _ bytes row ↦ bytes = row.encode := by
  refine (Reads.u16.bind fun nameIndex ↦ Reads.u16.bind_pure _).congr fun position bytes row ↦ ?_
  constructor
  · rintro ⟨nameIndex, _, _, rfl, rfl, accessFlags, rfl, rfl⟩
    rfl
  · rintro rfl
    exact ⟨_, _, _, rfl, rfl, _, rfl, rfl⟩

theorem ExceptionHandler.reads_decode : Reads decode fun _ bytes row ↦ bytes = row.encode := by
  refine (Reads.u16.bind fun startPc ↦ Reads.u16.bind fun endPc ↦ Reads.u16.bind fun handlerPc ↦
    Reads.u16.bind_pure _).congr fun position bytes row ↦ ?_
  constructor
  · rintro ⟨startPc, _, _, rfl, rfl, endPc, _, _, rfl, rfl, handlerPc, _, _, rfl, rfl, catchType,
      rfl, rfl⟩
    rfl
  · rintro rfl
    exact ⟨_, _, _, rfl, rfl, _, _, _, rfl, rfl, _, _, _, rfl, rfl, _, rfl, rfl⟩

theorem BootstrapMethod.reads_decode : Reads decode fun _ ↦ BootstrapBytes := by
  refine (Reads.u16.bind fun method ↦ Reads.u16.counted16.bind_pure _).congr
    fun position bytes row ↦ ?_
  constructor
  · rintro ⟨method, _, _, rfl, rfl, arguments, htable, rfl⟩
    exact .intro method htable
  · rintro ⟨method, htable⟩
    exact ⟨_, _, _, rfl, rfl, _, htable, rfl⟩

/-! ### Reading payloads -/

/-- A payload of a known kind is read from its bytes. -/
theorem AttributeKind.reads_decode (kind : AttributeKind) :
    Reads kind.decode fun _ ↦ PayloadBytes kind := by
  cases kind with
  | constantValue | signature | sourceFile =>
    refine (Reads.u16.bind_pure _).congr fun position bytes value ↦ ⟨?_, ?_⟩
    · rintro ⟨index, rfl, rfl⟩
      constructor
    · rintro ⟨⟩
      exact ⟨_, rfl, rfl⟩
  | deprecated | synthetic =>
    refine (Reads.pure _).congr fun position bytes value ↦ ⟨?_, ?_⟩
    · rintro ⟨rfl, rfl⟩
      constructor
    · rintro ⟨⟩
      exact ⟨rfl, rfl⟩
  | enclosingMethod =>
    refine (Reads.u16.bind fun owner ↦ Reads.u16.bind_pure _).congr
      fun position bytes value ↦ ⟨?_, ?_⟩
    · rintro ⟨owner, _, _, rfl, rfl, method, rfl, rfl⟩
      exact .enclosingMethod owner method
    · rintro ⟨⟩
      exact ⟨_, _, _, rfl, rfl, _, rfl, rfl⟩
  | lineNumberTable =>
    apply LineNumber.reads_decode.counted16.bind_pure_of
    · intro position bytes rows htable
      exact .lineNumberTable htable
    · intro position bytes value hpayload
      cases hpayload with
      | lineNumberTable htable => exact ⟨_, htable, rfl⟩
  | localVariableTable =>
    apply LocalVariable.reads_decode.counted16.bind_pure_of
    · intro position bytes rows htable
      exact .localVariableTable htable
    · intro position bytes value hpayload
      cases hpayload with
      | localVariableTable htable => exact ⟨_, htable, rfl⟩
  | localVariableTypeTable =>
    apply LocalVariable.reads_decode.counted16.bind_pure_of
    · intro position bytes rows htable
      exact .localVariableTypeTable htable
    · intro position bytes value hpayload
      cases hpayload with
      | localVariableTypeTable htable => exact ⟨_, htable, rfl⟩
  | exceptions =>
    apply Reads.u16.counted16.bind_pure_of
    · intro position bytes classes htable
      exact .exceptions htable
    · intro position bytes value hpayload
      cases hpayload with
      | exceptions htable => exact ⟨_, htable, rfl⟩
  | innerClasses =>
    apply InnerClass.reads_decode.counted16.bind_pure_of
    · intro position bytes classes htable
      exact .innerClasses htable
    · intro position bytes value hpayload
      cases hpayload with
      | innerClasses htable => exact ⟨_, htable, rfl⟩
  | bootstrapMethods =>
    apply BootstrapMethod.reads_decode.counted16.bind_pure_of
    · intro position bytes methods htable
      exact .bootstrapMethods htable
    · intro position bytes value hpayload
      cases hpayload with
      | bootstrapMethods htable => exact ⟨_, htable, rfl⟩
  | methodParameters =>
    apply MethodParameter.reads_decode.counted8.bind_pure_of
    · intro position bytes parameters htable
      exact .methodParameters htable
    · intro position bytes value hpayload
      cases hpayload with
      | methodParameters htable => exact ⟨_, htable, rfl⟩
  | annotations visible =>
    apply AnnotationEntry.reads_decode.counted16.bind_pure_of
    · intro position bytes entries htable
      exact .annotations htable
    · intro position bytes value hpayload
      cases hpayload with
      | annotations htable => exact ⟨_, htable, rfl⟩
  | parameterAnnotations visible =>
    apply AnnotationEntry.reads_decode.counted16.counted8.bind_pure_of
    · intro position bytes parameters htable
      exact .parameterAnnotations htable
    · intro position bytes value hpayload
      cases hpayload with
      | parameterAnnotations htable => exact ⟨_, htable, rfl⟩
  | typeAnnotations visible =>
    apply TypeAnnotationEntry.reads_decode.counted16.bind_pure_of
    · intro position bytes entries htable
      exact .typeAnnotations htable
    · intro position bytes value hpayload
      cases hpayload with
      | typeAnnotations htable => exact ⟨_, htable, rfl⟩
  | annotationDefault =>
    apply (ElementValue.reads_decode maxElementLevels).bind_pure_of
    · intro position bytes element helement
      exact .annotationDefault helement
    · intro position bytes value hpayload
      cases hpayload with
      | annotationDefault helement => exact ⟨_, helement, rfl⟩
  | stackMapTable =>
    apply StackMapFrame.reads_decode.counted16.bind_pure_of
    · intro position bytes frames htable
      exact .stackMapTable htable
    · intro position bytes value hpayload
      cases hpayload with
      | stackMapTable htable => exact ⟨_, htable, rfl⟩

/-! ### Reading records -/

/-- No known kind has the name of the attribute that holds a body. -/
theorem AttributeKind.name_ne_code (kind : AttributeKind) : kind.name ≠ Code.attributeName := by
  cases kind with
  | annotations visible | parameterAnnotations visible | typeAnnotations visible =>
    cases visible <;> decide
  | _ => decide

/-- Two known kinds of one name are one kind. -/
theorem AttributeKind.name_injective {kind other : AttributeKind} (h : kind.name = other.name) :
    kind = other := by
  have hkind := ofName?_name kind
  rw [h, ofName?_name] at hkind
  exact (Option.some.inj hkind).symm

section NamedPayload

variable (body : List UInt8 → Code → Prop) {name : String} (payload : List UInt8)
  (value : Attribute)

/-- Under the name of bodies a payload is a body. -/
theorem namedPayload_iff_of_code (hname : name = Code.attributeName) :
    NamedPayload body name payload value ↔ ∃ code, body payload code ∧ value = .code code := by
  constructor
  · intro h
    cases h with
    | code hbody => exact ⟨_, hbody, rfl⟩
    | known hpayload => exact absurd hname (AttributeKind.name_ne_code _)
    | keptLines hunreadable => exact absurd hname (AttributeKind.name_ne_code _)
    | unknown hne hkind => exact absurd hname hne
  · rintro ⟨code, hbody, rfl⟩
    rw [hname]
    exact .code hbody

/-- Under the name of a kind a payload is one of that kind, or a line table that is none. -/
theorem namedPayload_iff_of_kind {kind : AttributeKind} (hname : name = kind.name) :
    NamedPayload body name payload value ↔ PayloadBytes kind payload value ∨
      name = AttributeKind.lineNumberTable.name ∧ (∀ found, ¬ PayloadBytes kind payload found) ∧
        value = .unknown name payload := by
  constructor
  · intro h
    cases h with
    | code hbody => exact absurd hname.symm kind.name_ne_code
    | @known other _ _ hpayload =>
      obtain rfl : other = kind := AttributeKind.name_injective hname
      exact .inl hpayload
    | keptLines hunreadable =>
      obtain rfl : .lineNumberTable = kind := AttributeKind.name_injective hname
      exact .inr ⟨rfl, hunreadable, rfl⟩
    | unknown hne hkind =>
      rw [hname, AttributeKind.ofName?_name] at hkind
      simp at hkind
  · rintro (hpayload | ⟨hlines, hunreadable, rfl⟩)
    · rw [hname]
      exact .known hpayload
    · obtain rfl : kind = .lineNumberTable := AttributeKind.name_injective (hname.symm.trans hlines)
      rw [hname]
      exact .keptLines hunreadable

/-- Under any other name a payload is kept as bytes. -/
theorem namedPayload_iff_of_unknown (hcode : name ≠ Code.attributeName)
    (hkind : AttributeKind.ofName? name = none) :
    NamedPayload body name payload value ↔ value = .unknown name payload := by
  constructor
  · intro h
    cases h with
    | code hbody => exact absurd rfl hcode
    | known hpayload => simp [AttributeKind.ofName?_name] at hkind
    | keptLines hunreadable => rfl
    | unknown hne hkind => rfl
  · rintro rfl
    exact .unknown hcode hkind

end NamedPayload

/-- The front of a record is read from the index of a name and a length. -/
theorem AttributeHeader.reads_decode (pool : ConstantPool) :
    Reads (decode pool) fun position bytes header ↦
      ∃ nameIndex length name, pool.utf8? nameIndex = .ok name ∧
        bytes = word16 nameIndex ++ word32 length ∧ header = ⟨position, name, length⟩ := by
  refine (Reads.position_bind fun offset ↦ Reads.u16.bind fun nameIndex ↦
    Reads.u32.bind fun length ↦ Reads.mapError_bind _ fun name ↦ Reads.pure _).congr
    fun position bytes header ↦ ?_
  constructor
  · rintro ⟨nameIndex, _, _, rfl, rfl, length, _, _, rfl, rfl, name, hname, rfl, rfl⟩
    rw [List.append_nil]
    exact ⟨nameIndex, length, name, hname, rfl, rfl⟩
  · rintro ⟨nameIndex, length, name, hname, rfl, rfl⟩
    exact ⟨nameIndex, _, _, rfl, rfl, length, _, _, (List.append_nil _).symm, rfl, name,
      hname, rfl, rfl⟩

/-- A payload is taken for a value exactly if its structure uses it up. -/
theorem AttributeHeader.interpret_eq_ok_iff (header : AttributeHeader)
    {layout : Decoder PayloadFault Attribute} {form : List UInt8 → Attribute → Prop}
    (hlayout : layout.UsesUp form) (start : Nat) (payload : List UInt8) (value : Attribute) :
    header.interpret layout ⟨payload, start⟩ = .ok value ↔ form payload value := by
  rw [← hlayout start payload value, interpret]
  rcases layout ⟨payload, start⟩ with ⟨fault | found, left⟩
  · simp
  · cases hleft : left.isEmpty <;> simp [hleft]

/-- A payload is read from as many bytes as its length says. -/
theorem reads_decodeDelimited (header : AttributeHeader) {layout : Decoder PayloadFault Attribute}
    {form : List UInt8 → Attribute → Prop} (hlayout : layout.UsesUp form) :
    Reads (decodeDelimited header layout) fun _ payload value ↦
      payload.length = header.length.toNat ∧ (form payload value ∨
        header.name = AttributeKind.lineNumberTable.name ∧ (∀ found, ¬ form payload found) ∧
          value = .unknown header.name payload) := by
  refine ((Reads.window _).bind (?behind : ∀ payload, Reads _ fun _ bytes value ↦ bytes = [] ∧
    (header.interpret layout payload = .ok value ∨
      header.name = AttributeKind.lineNumberTable.name ∧
        (∀ found, header.interpret layout payload ≠ .ok found) ∧
          value = .unknown header.name payload.rest))).congr fun position bytes value ↦ ?bytes
  case behind =>
    intro payload
    cases header.interpret layout payload with
    | ok found =>
      refine (Reads.pure found).congr fun position bytes value ↦ ?_
      simp [eq_comm]
    | error fault =>
      refine (Reads.ite (fun _ ↦ Reads.pure _) fun _ ↦ Reads.fail _).congr
        fun position bytes value ↦ ?_
      simp [and_left_comm]
  case bytes =>
    simp only [← header.interpret_eq_ok_iff hlayout position]
    constructor
    · rintro ⟨_, payload, _, rfl, ⟨rfl, hlength⟩, rfl, hvalue⟩
      rw [List.append_nil]
      exact ⟨hlength, hvalue⟩
    · rintro ⟨hlength, hvalue⟩
      exact ⟨_, bytes, [], (List.append_nil bytes).symm, ⟨rfl, hlength⟩, rfl, hvalue⟩

/-- A record is read from its bytes, if the bodies of methods are read from theirs, or nothing is
one where there is no decoder for them. -/
theorem reads_decodeRecord (pool : ConstantPool) {body : List UInt8 → Code → Prop}
    {body? : Option (Decoder PayloadFault Code)}
    (hbody : ∀ decoder ∈ body?, Reads decoder fun _ ↦ body)
    (hnone : body? = none → ∀ payload code, ¬ body payload code) :
    Reads (decodeRecord pool body?) fun _ ↦ RecordBytes pool body := by
  refine ((AttributeHeader.reads_decode pool).bind (?behind : ∀ header : AttributeHeader,
    Reads _ fun _ payload value ↦ payload.length = header.length.toNat ∧
      NamedPayload body header.name payload value)).congr fun position bytes value ↦ ?bytes
  case behind =>
    intro header
    by_cases hcode : header.name = Code.attributeName
    · have hlines : header.name ≠ AttributeKind.lineNumberTable.name := by
        rw [hcode]
        exact (AttributeKind.name_ne_code _).symm
      rw [if_pos hcode]
      cases body? with
      | none =>
        refine (Reads.fail _).congr fun position payload value ↦ ?_
        simp [namedPayload_iff_of_code body payload value hcode, hnone rfl]
      | some decoder =>
        refine (reads_decodeDelimited header ((hbody decoder rfl).usesUp.map Attribute.code)).congr
          fun position payload value ↦ ?_
        simp [namedPayload_iff_of_code body payload value hcode, hlines]
    · rw [if_neg hcode]
      cases hkind : AttributeKind.ofName? header.name with
      | none =>
        refine (reads_decodeDelimited header (Decoder.usesUp_takeRest.map _)).congr
          fun position payload value ↦ ?_
        simp [namedPayload_iff_of_unknown body payload value hcode hkind]
      | some kind =>
        have hname := (AttributeKind.name_of_ofName? hkind).symm
        refine (reads_decodeDelimited header kind.reads_decode.usesUp).congr
          fun position payload value ↦ ?_
        rw [namedPayload_iff_of_kind body payload value hname]
  case bytes =>
    constructor
    · rintro ⟨header, _, payload, rfl, ⟨nameIndex, length, name, hname, rfl, rfl⟩, hlength,
        hpayload⟩
      rw [List.append_assoc]
      exact .intro hname hlength hpayload
    · rintro ⟨hname, hlength, hpayload⟩
      exact ⟨_, _, _, (List.append_assoc _ _ _).symm, ⟨_, _, _, hname, rfl, rfl⟩, hlength, hpayload⟩

/-- A record of an attribute inside a body is read from its bytes, which are no body. -/
theorem reads_decodeRecord_none (pool : ConstantPool) :
    Reads (decodeRecord pool none) fun _ ↦ RecordBytes pool fun _ _ ↦ False :=
  reads_decodeRecord pool (by simp) (by simp)

/-- The attributes inside a body are read from their records. -/
theorem Code.reads_decodeAttributes (pool : ConstantPool) :
    Reads (decodeAttributes pool) fun _ ↦ Table16 (RecordBytes pool fun _ _ ↦ False) :=
  (reads_decodeRecord_none pool).counted16

/-- The body of a method is read from its bytes. -/
theorem Code.reads_decode (pool : ConstantPool) : Reads (decode pool) fun _ ↦ BodyBytes pool := by
  refine (Reads.u16.bind fun maxStack ↦ Reads.u16.bind fun maxLocals ↦ Reads.u32.bind fun length ↦
    (Reads.take length.toNat).bind fun code ↦ ExceptionHandler.reads_decode.counted16.bind
      fun handlers ↦ ((Code.reads_decodeAttributes pool).mapFault _).bind_pure _).congr
    fun position bytes body ↦ ?_
  constructor
  · rintro ⟨maxStack, _, _, rfl, rfl, maxLocals, _, _, rfl, rfl, length, _, _, rfl, rfl, code, _, _,
      rfl, ⟨rfl, hlength⟩, handlers, _, _, rfl, hhandlers, attributes, hattributes, rfl⟩
    exact .intro hlength hhandlers hattributes
  · rintro ⟨hlength, hhandlers, hattributes⟩
    exact ⟨_, _, _, rfl, rfl, _, _, _, rfl, rfl, _, _, _, rfl, rfl, _, _, _, rfl, ⟨rfl, hlength⟩,
      _, _, _, rfl, hhandlers, _, hattributes, rfl⟩

/-- A record of an attribute of a class, a field or a method is read from its bytes. -/
theorem Attribute.reads_decode (pool : ConstantPool) :
    Reads (decode pool) fun _ ↦ AttributeBytes pool :=
  reads_decodeRecord pool (by simpa using Code.reads_decode pool) (by simp)

/-- A decoder of records that is given bytes by themselves accepts the bytes of a record. -/
theorem Attribute.accepts_decode_iff (pool : ConstantPool) (bytes : List UInt8)
    (value : Attribute) : (decode pool).Accepts bytes value ↔ AttributeBytes pool bytes value :=
  (reads_decode pool).accepts_iff bytes value

end MonitorAudit
