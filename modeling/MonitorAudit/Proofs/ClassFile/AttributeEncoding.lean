import MonitorAudit.Proofs.ClassFile.AnnotationEncoding
import MonitorAudit.Proofs.ClassFile.AttributeLayout
import MonitorAudit.Proofs.ClassFile.FrameEncoding
import MonitorAudit.Proofs.ClassFile.LineOrder

/-!
# Attributes written as bytes

The layout leaves some freedom in how an attribute is written: which index names it, in which order
the rows of a line table stand and which frames are in their long form. A `RecordSpelling` is a
choice in all of these, and a `Spelling` holds one for each record inside a body as well.
`Attribute.encode` writes an attribute by a spelling, and `Attribute.IsSpelled` says that the
attribute can be written and that the spelling is right for it.

`Attribute.decode_encode` says that reading undoes writing, for all attributes, spellings and
places. Where there is nothing to choose, writing undoes reading too (`Attribute.payload_decode`),
so that no byte of a payload gets lost.
-/

set_option autoImplicit false

namespace MonitorAudit

/-! ### Writing attributes -/

/-- A choice where the layout of a record leaves one. -/
structure RecordSpelling where
  /-- The index of the name of the attribute. -/
  nameIndex : UInt16
  /-- The rows of a line table, in the order in which they are written. -/
  lineRows : List LineNumber
  /-- Whether the frame at a position is written in its long form. -/
  isLong : Nat → Bool
  deriving Inhabited

/-- A choice for a record and, if it is a body, for the records inside it by their positions. -/
structure Spelling extends RecordSpelling where
  inside : Nat → RecordSpelling
  deriving Inhabited

/-- The bytes of a method that links a dynamic call site. -/
def BootstrapMethod.encode (method : BootstrapMethod) : List UInt8 :=
  word16 method.methodRef ++ encodeTable16 (method.arguments.map word16)

/-- The bytes of a record with a payload. -/
def encodeRecord (nameIndex : UInt16) (payload : List UInt8) : List UInt8 :=
  word16 nameIndex ++ (word32 (UInt32.ofNat payload.length) ++ payload)

/-- The payload of an attribute, if bodies are written as given. -/
def Attribute.payloadWith (writeBody : Code → List UInt8) (spelling : RecordSpelling) :
    Attribute → List UInt8
  | .code body => writeBody body
  | .lineNumberTable _ => encodeTable16 (spelling.lineRows.map LineNumber.encode)
  | .localVariableTable rows => encodeTable16 (rows.map LocalVariable.encode)
  | .localVariableTypeTable rows => encodeTable16 (rows.map LocalVariable.encode)
  | .exceptions classIndices => encodeTable16 (classIndices.map word16)
  | .constantValue index => word16 index
  | .deprecated => []
  | .synthetic => []
  | .signature index => word16 index
  | .sourceFile index => word16 index
  | .innerClasses classes => encodeTable16 (classes.map InnerClass.encode)
  | .enclosingMethod classIndex methodIndex => word16 classIndex ++ word16 methodIndex
  | .bootstrapMethods methods => encodeTable16 (methods.map BootstrapMethod.encode)
  | .methodParameters parameters => encodeTable8 (parameters.map MethodParameter.encode)
  | .annotations _ entries => encodeTable16 (entries.map AnnotationEntry.encode)
  | .parameterAnnotations _ parameters =>
    encodeTable8 (parameters.map fun entries ↦ encodeTable16 (entries.map AnnotationEntry.encode))
  | .typeAnnotations _ entries => encodeTable16 (entries.map TypeAnnotationEntry.encode)
  | .annotationDefault value => value.encode
  | .stackMapTable frames =>
    encodeTable16 (frames.mapIdx fun position frame ↦ frame.encode (spelling.isLong position))
  | .unknown _ data => data

/-- The bytes of a record of an attribute, if bodies are written as given. -/
def Attribute.encodeWith (writeBody : Code → List UInt8) (spelling : RecordSpelling)
    (value : Attribute) : List UInt8 :=
  encodeRecord spelling.nameIndex (value.payloadWith writeBody spelling)

/-- The bytes of the body of a method. No body is written inside it. -/
def Code.encode (inside : Nat → RecordSpelling) (body : Code) : List UInt8 :=
  word16 body.maxStack ++ (word16 body.maxLocals ++
    (word32 (UInt32.ofNat body.bytes.length) ++ (body.bytes ++
      (encodeTable16 (body.handlers.map ExceptionHandler.encode) ++
        encodeTable16 (body.attributes.mapIdx fun position inner ↦
          inner.encodeWith (fun _ ↦ []) (inside position))))))

/-- The payload of an attribute of a class, a field or a method. -/
def Attribute.payload (spelling : Spelling) (value : Attribute) : List UInt8 :=
  value.payloadWith (Code.encode spelling.inside) spelling.toRecordSpelling

/-- The bytes of a record of an attribute of a class, a field or a method. -/
def Attribute.encode (spelling : Spelling) (value : Attribute) : List UInt8 :=
  encodeRecord spelling.nameIndex (value.payload spelling)

/-! ### What can be written -/

/-- An attribute with counts, tags and nesting that the layout can hold, if such are the bodies
given. An attribute of an unknown structure must not have the name of one whose structure is
known. -/
def Attribute.FitsWith (bodyFits : Code → Prop) : Attribute → Prop
  | .code body => bodyFits body
  | .lineNumberTable table => table.rows.length < UInt16.size
  | .localVariableTable rows => rows.length < UInt16.size
  | .localVariableTypeTable rows => rows.length < UInt16.size
  | .exceptions classIndices => classIndices.length < UInt16.size
  | .constantValue _ => True
  | .deprecated => True
  | .synthetic => True
  | .signature _ => True
  | .sourceFile _ => True
  | .innerClasses classes => classes.length < UInt16.size
  | .enclosingMethod _ _ => True
  | .bootstrapMethods methods =>
    methods.length < UInt16.size ∧ ∀ method ∈ methods, method.arguments.length < UInt16.size
  | .methodParameters parameters => parameters.length < UInt8.size
  | .annotations _ entries => entries.length < UInt16.size ∧ ∀ entry ∈ entries, entry.Fits
  | .parameterAnnotations _ parameters =>
    parameters.length < UInt8.size ∧ ∀ entries ∈ parameters,
      entries.length < UInt16.size ∧ ∀ entry ∈ entries, entry.Fits
  | .typeAnnotations _ entries => entries.length < UInt16.size ∧ ∀ entry ∈ entries, entry.Fits
  | .annotationDefault value => value.Fits maxElementLevels
  | .stackMapTable frames => frames.length < UInt16.size ∧ ∀ frame ∈ frames, frame.Fits
  | .unknown name _ => name ≠ Code.attributeName ∧ AttributeKind.ofName? name = none

/-- An attribute that can be written, and a spelling that is right for it: its index is that of the
name, and the rows of a line table are those of the table. -/
structure Attribute.IsSpelledWith (pool : ConstantPool) (writeBody : Code → List UInt8)
    (bodyFits : Code → Prop) (spelling : RecordSpelling) (value : Attribute) : Prop where
  named : pool.utf8? spelling.nameIndex = .ok value.name
  fits : value.FitsWith bodyFits
  listed : ∀ table, value = .lineNumberTable table → table.IsListedBy spelling.lineRows
  length_lt : (value.payloadWith writeBody spelling).length < UInt32.size

/-- A body whose counts fit, with attributes that can be written, none of which is a body. -/
structure Code.IsSpelled (pool : ConstantPool) (inside : Nat → RecordSpelling) (body : Code) :
    Prop where
  handlers_lt : body.handlers.length < UInt16.size
  attributes_lt : body.attributes.length < UInt16.size
  each : ∀ (position : Nat) (value : Attribute), body.attributes[position]? = some value →
    value.IsSpelledWith pool (fun _ ↦ []) (fun _ ↦ False) (inside position)

/-- An attribute of a class, a field or a method that can be written, and a spelling that is right
for it. -/
def Attribute.IsSpelled (pool : ConstantPool) (spelling : Spelling) (value : Attribute) : Prop :=
  value.IsSpelledWith pool (Code.encode spelling.inside) (Code.IsSpelled pool spelling.inside)
    spelling.toRecordSpelling

/-! ### The bytes of what is written -/

theorem BootstrapMethod.hasOneSpelling :
    HasOneSpelling BootstrapBytes encode fun method ↦ method.arguments.length < UInt16.size := by
  have htable := HasOneSpelling.table16_of_eq word16
  intro bytes method
  constructor
  · rintro ⟨reference, table⟩
    obtain ⟨rfl, hcount⟩ := (htable _ _).mp table
    exact ⟨rfl, hcount⟩
  · rintro ⟨rfl, hcount⟩
    exact .intro method.methodRef (htable.encode_of_fits hcount)

/-- What is written for an attribute is a payload under its name. -/
theorem Attribute.IsSpelledWith.namedPayload {pool : ConstantPool}
    {body : List UInt8 → Code → Prop} {writeBody : Code → List UInt8} {bodyFits : Code → Prop}
    {spelling : RecordSpelling} {value : Attribute}
    (h : value.IsSpelledWith pool writeBody bodyFits spelling)
    (hbody : ∀ code, bodyFits code → (writeBody code).length < UInt32.size →
      body (writeBody code) code) :
    NamedPayload body value.name (value.payloadWith writeBody spelling) value := by
  obtain ⟨-, hfits, hlisted, hlength⟩ := h
  cases value with
  | code code => exact .code (hbody code hfits hlength)
  | lineNumberTable table =>
    have hrows := hlisted table rfl
    have hcount : spelling.lineRows.length < UInt16.size := by
      rw [hrows.length_eq]
      exact hfits
    have htable := (HasOneSpelling.table16_of_eq LineNumber.encode).encode_of_fits hcount
    rw [← (LineNumberTable.ofRows_eq_iff table spelling.lineRows).mpr hrows]
    exact .known (.lineNumberTable htable)
  | localVariableTable rows =>
    exact .known (.localVariableTable ((HasOneSpelling.table16_of_eq _).encode_of_fits hfits))
  | localVariableTypeTable rows =>
    exact .known (.localVariableTypeTable ((HasOneSpelling.table16_of_eq _).encode_of_fits hfits))
  | exceptions classIndices =>
    exact .known (.exceptions ((HasOneSpelling.table16_of_eq _).encode_of_fits hfits))
  | constantValue index => exact .known (.constantValue index)
  | deprecated => exact .known .deprecated
  | synthetic => exact .known .synthetic
  | signature index => exact .known (.signature index)
  | sourceFile index => exact .known (.sourceFile index)
  | innerClasses classes =>
    exact .known (.innerClasses ((HasOneSpelling.table16_of_eq _).encode_of_fits hfits))
  | enclosingMethod classIndex methodIndex =>
    exact .known (.enclosingMethod classIndex methodIndex)
  | bootstrapMethods methods =>
    exact .known (.bootstrapMethods (BootstrapMethod.hasOneSpelling.table16.encode_of_fits hfits))
  | methodParameters parameters =>
    exact .known (.methodParameters ((HasOneSpelling.table8_of_eq _).encode_of_fits hfits))
  | annotations visible entries =>
    have htable := AnnotationEntry.hasOneSpelling.table16.encode_of_fits hfits
    have hpayload : PayloadBytes (.annotations visible) _ _ := .annotations htable
    exact .known hpayload
  | parameterAnnotations visible parameters =>
    have htable := AnnotationEntry.hasOneSpelling.table16.table8.encode_of_fits hfits
    have hpayload : PayloadBytes (.parameterAnnotations visible) _ _ :=
      .parameterAnnotations htable
    exact .known hpayload
  | typeAnnotations visible entries =>
    have htable := TypeAnnotationEntry.hasOneSpelling.table16.encode_of_fits hfits
    have hpayload : PayloadBytes (.typeAnnotations visible) _ _ := .typeAnnotations htable
    exact .known hpayload
  | annotationDefault value =>
    exact .known (.annotationDefault
      ((ElementValue.hasOneSpelling maxElementLevels).encode_of_fits hfits))
  | stackMapTable frames =>
    obtain ⟨hcount, hframes⟩ := hfits
    refine .known (.stackMapTable (.of_forall₂ (forall₂_mapIdx fun position frame hframe ↦ ?_)
      hcount))
    exact .of_fits _ (hframes frame (List.mem_of_getElem? hframe))
  | unknown name data => exact .unknown hfits.1 hfits.2

/-- What is written for a record is a record. -/
theorem Attribute.IsSpelledWith.recordBytes {pool : ConstantPool}
    {body : List UInt8 → Code → Prop} {writeBody : Code → List UInt8} {bodyFits : Code → Prop}
    {spelling : RecordSpelling} {value : Attribute}
    (h : value.IsSpelledWith pool writeBody bodyFits spelling)
    (hbody : ∀ code, bodyFits code → (writeBody code).length < UInt32.size →
      body (writeBody code) code) :
    RecordBytes pool body (value.encodeWith writeBody spelling) value :=
  .intro h.named (UInt32.toNat_ofNat_of_lt' h.length_lt).symm (h.namedPayload hbody)

/-- What is written for a body is the body. -/
theorem Code.IsSpelled.bodyBytes {pool : ConstantPool} {inside : Nat → RecordSpelling} {body : Code}
    (h : body.IsSpelled pool inside) (hlength : (body.encode inside).length < UInt32.size) :
    BodyBytes pool (body.encode inside) body := by
  -- The code is part of a payload whose length fits, so its own length fits too.
  have hbytes : body.bytes.length < UInt32.size := by
    simp only [Code.encode, List.length_append] at hlength
    omega
  have hhandlers := (HasOneSpelling.table16_of_eq ExceptionHandler.encode).encode_of_fits
    h.handlers_lt
  have hrecord (position : Nat) (value : Attribute) (hvalue : body.attributes[position]? = value) :
      RecordBytes pool (fun _ _ ↦ False) (value.encodeWith (fun _ ↦ []) (inside position)) value :=
    (h.each position value hvalue).recordBytes fun _ hcode _ ↦ hcode
  have hattributes := Table16.of_forall₂ (forall₂_mapIdx hrecord) h.attributes_lt
  cases body
  exact .intro (UInt32.toNat_ofNat_of_lt' hbytes).symm hhandlers hattributes

/-- What is written for an attribute of a class, a field or a method is the attribute. -/
theorem Attribute.IsSpelled.attributeBytes {pool : ConstantPool} {spelling : Spelling}
    {value : Attribute} (h : value.IsSpelled pool spelling) :
    AttributeBytes pool (value.encode spelling) value :=
  h.recordBytes fun _ hcode hlength ↦ hcode.bodyBytes hlength

/-! ### Reading what is written -/

/-- A record in front of other bytes is told from all others: no two have the same name, payload
and rest. -/
theorem encodeRecord_append_inj {nameIndex otherIndex : UInt16} {length : UInt32}
    {payload other rest tail : List UInt8} (hlength : other.length = length.toNat)
    (hpayload : payload.length < UInt32.size)
    (h : encodeRecord nameIndex payload ++ tail =
      word16 otherIndex ++ (word32 length ++ other) ++ rest) :
    nameIndex = otherIndex ∧ payload = other ∧ tail = rest := by
  simp only [encodeRecord, List.append_assoc] at h
  obtain ⟨hindex, hbehind⟩ := List.append_inj h (by simp)
  obtain ⟨hword, hboth⟩ := List.append_inj hbehind (by simp)
  have hsame : payload.length = other.length := by
    rw [hlength, ← word32_injective hword, UInt32.toNat_ofNat_of_lt' hpayload]
  exact ⟨word16_injective hindex, List.append_inj hboth hsame⟩

/-- The name of an attribute is the one under which its payload stands. -/
theorem NamedPayload.name_eq {body : List UInt8 → Code → Prop} {name : String}
    {payload : List UInt8} {value : Attribute} (h : NamedPayload body name payload value) :
    value.name = name := by
  cases h with
  | known behind => cases behind <;> rfl
  | _ => rfl

/-- Where the layout leaves no choice, the payload of an attribute is the one that is written. -/
theorem NamedPayload.eq_payload {pool : ConstantPool} {name : String} {payload : List UInt8}
    {value : Attribute} (h : NamedPayload (BodyBytes pool) name payload value)
    (hcode : name ≠ Code.attributeName) (hlines : name ≠ AttributeKind.lineNumberTable.name)
    (hframes : name ≠ AttributeKind.stackMapTable.name) (spelling : Spelling) :
    payload = value.payload spelling := by
  cases h with
  | code behind => exact absurd rfl hcode
  | keptLines unreadable => exact absurd rfl hlines
  | unknown name_ne no_kind => rfl
  | known behind =>
    cases behind with
    | lineNumberTable table => exact absurd rfl hlines
    | stackMapTable table => exact absurd rfl hframes
    | localVariableTable table => exact (HasOneSpelling.table16_of_eq _).eq_encode table
    | localVariableTypeTable table => exact (HasOneSpelling.table16_of_eq _).eq_encode table
    | exceptions table => exact (HasOneSpelling.table16_of_eq _).eq_encode table
    | innerClasses table => exact (HasOneSpelling.table16_of_eq _).eq_encode table
    | bootstrapMethods table => exact BootstrapMethod.hasOneSpelling.table16.eq_encode table
    | methodParameters table => exact (HasOneSpelling.table8_of_eq _).eq_encode table
    | annotations table => exact AnnotationEntry.hasOneSpelling.table16.eq_encode table
    | parameterAnnotations table =>
      exact AnnotationEntry.hasOneSpelling.table16.table8.eq_encode table
    | typeAnnotations table => exact TypeAnnotationEntry.hasOneSpelling.table16.eq_encode table
    | annotationDefault behind =>
      exact (ElementValue.hasOneSpelling maxElementLevels).eq_encode behind
    | _ => rfl

namespace Attribute

/-- A record is read as an attribute of the name to which its index leads. -/
theorem utf8?_eq_ok_name_of_decode {pool : ConstantPool} {nameIndex : UInt16}
    {behind : List UInt8} {position : Nat} {value : Attribute} {moved : Cursor}
    (h : decode pool ⟨word16 nameIndex ++ behind, position⟩ = (.ok value, moved)) :
    pool.utf8? nameIndex = .ok value.name := by
  obtain ⟨bytes, hrecord, hrest, -⟩ := (reads_decode pool _ _ _).mp h
  obtain ⟨resolved, -, payload⟩ := hrecord
  simp only [List.append_assoc] at hrest
  obtain ⟨hindex, -⟩ := List.append_inj hrest (by simp)
  rw [word16_injective hindex, resolved, payload.name_eq]

/-- A record is read from its payload under the name to which its index leads. -/
theorem namedPayload_of_decode {pool : ConstantPool} {nameIndex : UInt16} {name : String}
    {payload tail : List UInt8} {position : Nat} {value : Attribute} {moved : Cursor}
    (hname : pool.utf8? nameIndex = .ok name) (hlength : payload.length < UInt32.size)
    (h : decode pool ⟨encodeRecord nameIndex payload ++ tail, position⟩ = (.ok value, moved)) :
    NamedPayload (BodyBytes pool) name payload value := by
  obtain ⟨bytes, hrecord, hrest, -⟩ := (reads_decode pool _ _ _).mp h
  obtain ⟨resolved, length_eq, behind⟩ := hrecord
  obtain ⟨rfl, rfl, -⟩ := encodeRecord_append_inj length_eq hlength hrest
  obtain rfl := Except.ok.inj (hname.symm.trans resolved)
  exact behind

/-- Reading undoes writing, whatever the spelling, wherever the record stands and whatever follows
it. The cursor is left behind the record, and the attribute has the name to which the index leads.
The rows of a line table come back in order of their offsets, and any rows are those of a table. -/
theorem decode_encode :
    (∀ (pool : ConstantPool) (spelling : Spelling) (value : Attribute),
      value.IsSpelled pool spelling → ∀ (position : Nat) (tail : List UInt8),
        decode pool ⟨value.encode spelling ++ tail, position⟩ =
          (.ok value, ⟨tail, position + (value.encode spelling).length⟩)) ∧
    (∀ (pool : ConstantPool) (nameIndex : UInt16) (behind : List UInt8) (position : Nat)
      (value : Attribute) (moved : Cursor),
        decode pool ⟨word16 nameIndex ++ behind, position⟩ = (.ok value, moved) →
          pool.utf8? nameIndex = .ok value.name) ∧
    ∀ rows : List LineNumber, (LineNumberTable.ofRows rows).IsListedBy rows := by
  refine ⟨?_, ?_, LineNumberTable.isListedBy_ofRows⟩
  · intro pool spelling value hspelled position tail
    exact (reads_decode pool).run position hspelled.attributeBytes tail
  · intro pool nameIndex behind position value moved h
    exact utf8?_eq_ok_name_of_decode h

/-- A pool of four names. -/
def namingPool : ConstantPool :=
  .ofConstants 5 [.utf8 "Code", .utf8 "LineNumberTable", .utf8 "StackMapTable", .utf8 "Note"]

/-- A body with a line table, two frames and an attribute of an unknown structure inside it. -/
def annotatedBody : Code where
  maxStack := 2
  maxLocals := 1
  bytes := [0xB1]
  handlers := [⟨0, 1, 0, 0⟩]
  attributes := [.lineNumberTable ⟨[⟨0, 1⟩, ⟨0, 2⟩, ⟨4, 7⟩], by decide⟩,
    .stackMapTable [.same 3, .append 70 [.integer]], .unknown "Note" [0xCA, 0xFE]]

/-- A spelling of the body in which the line table is out of order and a near frame is long. -/
def looseSpelling : Spelling where
  nameIndex := 1
  lineRows := []
  isLong _ := false
  inside position := ⟨UInt16.ofNat (position + 2), [⟨4, 7⟩, ⟨0, 1⟩, ⟨0, 2⟩], fun _ ↦ true⟩

theorem isSpelled_annotatedBody : IsSpelled namingPool looseSpelling (.code annotatedBody) where
  named := rfl
  fits := by
    refine ⟨by decide, by decide, fun position value hvalue ↦ ?_⟩
    match position with
    | 0 =>
      cases hvalue
      refine ⟨rfl, by simp [FitsWith, UInt16.size], fun table htable startPc ↦ ?_, by decide⟩
      cases htable
      by_cases hfour : (4 : UInt16) = startPc
      · subst hfour
        decide
      · simp [looseSpelling, LineNumber.startingAt, List.filter_cons, hfour]
    | 1 =>
      cases hvalue
      refine ⟨rfl, ⟨by decide, ?_⟩, fun table htable ↦ (by cases htable), by decide⟩
      simp [StackMapFrame.Fits]
    | 2 =>
      cases hvalue
      exact ⟨rfl, ⟨by decide, by decide⟩, fun table htable ↦ (by cases htable), by decide⟩
    | position + 3 => cases hvalue
  listed := fun table htable ↦ by cases htable
  length_lt := by decide

theorem decode_annotatedBody :
    IsSpelled namingPool looseSpelling (.code annotatedBody) ∧
    encode looseSpelling (.code annotatedBody) =
      [0, 1, 0, 0, 0, 64, 0, 2, 0, 1, 0, 0, 0, 1, 0xB1, 0, 1, 0, 0, 0, 1, 0, 0, 0, 0, 0, 3,
        0, 2, 0, 0, 0, 14, 0, 3, 0, 4, 0, 7, 0, 0, 0, 1, 0, 0, 0, 2,
        0, 3, 0, 0, 0, 9, 0, 2, 251, 0, 3, 252, 0, 70, 1, 0, 4, 0, 0, 0, 2, 0xCA, 0xFE] ∧
    decode namingPool ⟨encode looseSpelling (.code annotatedBody) ++ [9], 40⟩ =
      (.ok (.code annotatedBody), ⟨[9], 110⟩) :=
  ⟨isSpelled_annotatedBody, by decide,
    decode_encode.1 namingPool looseSpelling _ isSpelled_annotatedBody 40 [9]⟩

/-- Where the layout leaves no choice, writing undoes reading: the payload that is written for the
attribute is the one from which it was read. So no other payload under the same name is read as the
same attribute. -/
theorem payload_decode (pool : ConstantPool) (nameIndex : UInt16) (name : String)
    (payload tail : List UInt8) (position : Nat) (value : Attribute) (moved : Cursor)
    (hname : pool.utf8? nameIndex = .ok name) (hcode : name ≠ Code.attributeName)
    (hlines : name ≠ AttributeKind.lineNumberTable.name)
    (hframes : name ≠ AttributeKind.stackMapTable.name) (hlength : payload.length < UInt32.size)
    (hdecode : decode pool ⟨encodeRecord nameIndex payload ++ tail, position⟩ =
      (.ok value, moved)) :
    (∀ spelling, value.payload spelling = payload) ∧
    ∀ (otherPool : ConstantPool) (otherIndex : UInt16) (other otherTail : List UInt8)
      (otherPosition : Nat) (otherMoved : Cursor), otherPool.utf8? otherIndex = .ok name →
        other.length < UInt32.size →
        decode otherPool ⟨encodeRecord otherIndex other ++ otherTail, otherPosition⟩ =
          (.ok value, otherMoved) → other = payload := by
  have hpayload (spelling : Spelling) : payload = value.payload spelling :=
    (namedPayload_of_decode hname hlength hdecode).eq_payload hcode hlines hframes spelling
  refine ⟨fun spelling ↦ (hpayload spelling).symm, ?_⟩
  intro otherPool otherIndex other otherTail otherPosition otherMoved hother hotherLength h
  have hotherPayload : other = value.payload default :=
    (namedPayload_of_decode hother hotherLength h).eq_payload hcode hlines hframes default
  exact hotherPayload.trans (hpayload default).symm

theorem payload_decode_defaultArray :
    decode (.ofConstants 2 [.utf8 "AnnotationDefault"])
        ⟨encodeRecord 1 [0x5B, 0, 2, 0x49, 0, 5, 0x63, 0, 6] ++ [9], 40⟩ =
      (.ok (.annotationDefault (.array [.const 0x49 5, .classRef 6])), ⟨[9], 55⟩) ∧
    ∀ spelling, (annotationDefault (.array [.const 0x49 5, .classRef 6])).payload spelling =
      [0x5B, 0, 2, 0x49, 0, 5, 0x63, 0, 6] :=
  ⟨rfl, (payload_decode (.ofConstants 2 [.utf8 "AnnotationDefault"]) 1 "AnnotationDefault"
    [0x5B, 0, 2, 0x49, 0, 5, 0x63, 0, 6] [9] 40 _ ⟨[9], 55⟩ rfl (by decide) (by decide) (by decide)
    (by decide) rfl).1⟩

end Attribute

end MonitorAudit
