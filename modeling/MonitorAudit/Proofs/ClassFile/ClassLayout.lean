import MonitorAudit.ClassFile.Basic
import MonitorAudit.Proofs.ClassFile.AttributeLayout
import MonitorAudit.Proofs.ClassFile.PoolLayout

/-!
# The bytes of a class file

`ClassBytes unit` says which bytes are a class file: a front up to the name of the class
(`HeaderBytes`), the superclass, and tables of interfaces, fields, methods and attributes. The
constant pool and each attribute are stretches of bytes that their decoders accept by themselves
(`Decoder.Accepts`).

`ClassFile.parse_eq_ok_iff` says that bytes are parsed as a class exactly if they begin with the
bytes of that class. Nothing else is accepted, and what is read says no more and no less than the
bytes do.
-/

set_option autoImplicit false

namespace MonitorAudit

/-! ### The layout of bytes -/

/-- Which bytes are the front of a class file: the magic word, a version that is read, a constant
pool, the flags of the class and the slot of its name. -/
inductive HeaderBytes : List UInt8 → ClassHeader → Prop
  | intro {minor major accessFlags thisClass : UInt16} {poolBytes : List UInt8}
      {pool : ConstantPool} {name : String} (supported : 45 ≤ major.toNat)
      (accepted : ConstantPool.decode.Accepts poolBytes pool)
      (named : pool.className? thisClass = .ok name) :
      HeaderBytes
        (word32 0xCAFEBABE ++ (word16 minor ++ (word16 major ++ (poolBytes ++
          (word16 accessFlags ++ word16 thisClass)))))
        ⟨minor, major, pool, accessFlags, thisClass, dotted name⟩

/-- Which bytes are the slot of a superclass, and the name of the superclass. -/
inductive SuperBytes (pool : ConstantPool) : List UInt8 → UInt16 × Option String → Prop
  | none : SuperBytes pool (word16 0) (0, none)
  | some {index : UInt16} {name : String} (index_ne : index ≠ 0)
      (named : pool.className? index = .ok name) :
      SuperBytes pool (word16 index) (index, some (dotted name))

/-- Which bytes are a field or a method: its flags, the slots of its name and of its descriptor, and
a table of attributes. -/
inductive MemberBytes (pool : ConstantPool) : List UInt8 → Member → Prop
  | intro {accessFlags nameIndex descriptorIndex : UInt16} {name descriptor : String}
      {attributesBytes : List UInt8} {attributes : List Attribute}
      (named : pool.utf8? nameIndex = .ok name)
      (described : pool.utf8? descriptorIndex = .ok descriptor)
      (table : Table16 (Attribute.decode pool).Accepts attributesBytes attributes) :
      MemberBytes pool
        (word16 accessFlags ++ (word16 nameIndex ++ (word16 descriptorIndex ++ attributesBytes)))
        ⟨accessFlags, nameIndex, descriptorIndex, name, descriptor, attributes⟩

/-- Which bytes are a class file that is read from the unit named. -/
inductive ClassBytes (unit : String) : List UInt8 → ClassFile → Prop
  | intro {headerBytes superBytes interfacesBytes fieldsBytes methodsBytes attributesBytes :
        List UInt8} {header : ClassHeader} {superClass : UInt16} {superName? : Option String}
      {interfaces : List UInt16} {fields methods : List Member} {attributes : List Attribute}
      (front : HeaderBytes headerBytes header)
      (parent : SuperBytes header.pool superBytes (superClass, superName?))
      (interfacesTable : Table16 (fun row index ↦ row = word16 index) interfacesBytes interfaces)
      (fieldsTable : Table16 (MemberBytes header.pool) fieldsBytes fields)
      (methodsTable : Table16 (MemberBytes header.pool) methodsBytes methods)
      (attributesTable :
        Table16 (Attribute.decode header.pool).Accepts attributesBytes attributes) :
      ClassBytes unit
        (headerBytes ++ (superBytes ++ (interfacesBytes ++ (fieldsBytes ++
          (methodsBytes ++ attributesBytes)))))
        { header with unit, superClass, superName?, interfaces, fields, methods, attributes }

open Decoder (Reads)

/-! ### Reading the parts -/

/-- The front of a class file is read from its bytes. -/
theorem ClassHeader.reads_decode : Reads decode fun _ ↦ HeaderBytes := by
  refine (Reads.u32.bind fun found ↦ Reads.guard _ fun _ ↦ Reads.u16.bind fun minor ↦
    Reads.u16.bind fun major ↦ Reads.guard _ fun _ ↦
      (ConstantPool.reads_decode.accepts.mapFault _).bind fun pool ↦
        Reads.u16.bind fun accessFlags ↦ Reads.u16.bind fun thisClass ↦
          Reads.mapError_bind _ fun name ↦ Reads.pure _).congr
    fun position bytes header ↦ ?_
  constructor
  · rintro ⟨found, _, _, rfl, rfl, hmagic, minor, _, _, rfl, rfl, major, _, _, rfl, rfl, hmajor,
      pool, _, _, rfl, hpool, accessFlags, _, _, rfl, rfl, thisClass, _, _, rfl, rfl, name, hname,
      rfl, rfl⟩
    obtain rfl : found = magic := Classical.not_not.mp hmagic
    rw [List.append_nil]
    exact .intro (Nat.le_of_not_lt hmajor) hpool hname
  · rintro ⟨hmajor, hpool, hname⟩
    exact ⟨magic, _, _, rfl, rfl, fun h ↦ h rfl, _, _, _, rfl, rfl, _, _, _, rfl, rfl,
      Nat.not_lt_of_le hmajor, _, _, _, rfl, hpool, _, _, _, rfl, rfl, _, _, _,
      (List.append_nil _).symm, rfl, _, hname, rfl, rfl⟩

/-- The superclass is read from its slot. -/
theorem ClassFile.reads_decodeSuper (pool : ConstantPool) :
    Reads (decodeSuper pool) fun _ ↦ SuperBytes pool := by
  refine (Reads.u16.bind fun index ↦ Reads.ite (fun _ ↦ Reads.pure _) fun _ ↦
    Reads.mapError_bind _ fun name ↦ Reads.pure _).congr fun position bytes value ↦ ?_
  constructor
  · rintro ⟨index, _, _, rfl, rfl, ⟨rfl, rfl, rfl⟩ | ⟨hindex, name, hname, rfl, rfl⟩⟩
    · exact .none
    · rw [List.append_nil]
      exact .some hindex hname
  · intro hsuper
    cases hsuper with
    | none => exact ⟨0, _, [], rfl, rfl, .inl ⟨rfl, rfl, rfl⟩⟩
    | some hindex hname =>
      exact ⟨_, _, [], (List.append_nil _).symm, rfl, .inr ⟨hindex, _, hname, rfl, rfl⟩⟩

/-- The interfaces are read from a table of slots. -/
theorem ClassFile.reads_interfaces :
    Reads (Decoder.counted16 Decoder.u16 : Decoder ClassFault (List UInt16)) fun _ ↦
      Table16 fun row index ↦ row = word16 index :=
  Reads.counted16 Reads.u16

/-- A table of attributes is read from stretches of bytes that are accepted one by one. -/
theorem Attribute.reads_decodeTable (pool : ConstantPool) :
    Reads (decodeTable pool) fun _ ↦ Table16 (decode pool).Accepts :=
  (Attribute.reads_decode pool).accepts.counted16

namespace Member

/-- What a member has in front of its attributes is read from three words. -/
theorem reads_decodeHead (pool : ConstantPool) :
    Reads (decodeHead pool) fun _ bytes head ↦ pool.utf8? head.nameIndex = .ok head.name ∧
      bytes = word16 head.accessFlags ++
        (word16 head.nameIndex ++ word16 head.descriptorIndex) := by
  refine (Reads.u16.bind fun accessFlags ↦ Reads.u16.bind fun nameIndex ↦
    Reads.u16.bind fun descriptorIndex ↦ Reads.mapError_bind _ fun name ↦ Reads.pure _).congr
    fun position bytes head ↦ ?_
  constructor
  · rintro ⟨accessFlags, _, _, rfl, rfl, nameIndex, _, _, rfl, rfl, descriptorIndex, _, _, rfl, rfl,
      name, hname, rfl, rfl⟩
    rw [List.append_nil]
    exact ⟨hname, rfl⟩
  · rintro ⟨hname, rfl⟩
    exact ⟨_, _, _, rfl, rfl, _, _, _, rfl, rfl, _, _, _, (List.append_nil _).symm, rfl, _, hname,
      rfl, rfl⟩

/-- What a member has behind that is a table of attributes, if its descriptor is there. -/
theorem reads_decodeBody (pool : ConstantPool) (head : Head) :
    Reads (decodeBody pool head) fun _ bytes member ↦ ∃ descriptor attributes,
      pool.utf8? head.descriptorIndex = .ok descriptor ∧
        Table16 (Attribute.decode pool).Accepts bytes attributes ∧
        member = ⟨head.accessFlags, head.nameIndex, head.descriptorIndex, head.name, descriptor,
          attributes⟩ := by
  refine (Reads.mapError_bind _ fun descriptor ↦
    (Attribute.reads_decodeTable pool).bind_pure _).congr fun position bytes member ↦ ?_
  constructor
  · rintro ⟨descriptor, hdescriptor, attributes, htable, rfl⟩
    exact ⟨descriptor, attributes, hdescriptor, htable, rfl⟩
  · rintro ⟨descriptor, attributes, hdescriptor, htable, rfl⟩
    exact ⟨descriptor, hdescriptor, attributes, htable, rfl⟩

/-- The two parts of a member are the bytes of a member. -/
theorem memberBytes_iff (pool : ConstantPool) (bytes : List UInt8) (member : Member) :
    MemberBytes pool bytes member ↔ ∃ (head : Head) (front back : List UInt8),
      bytes = front ++ back ∧
      (pool.utf8? head.nameIndex = .ok head.name ∧
        front = word16 head.accessFlags ++ (word16 head.nameIndex ++ word16 head.descriptorIndex)) ∧
      ∃ descriptor attributes, pool.utf8? head.descriptorIndex = .ok descriptor ∧
        Table16 (Attribute.decode pool).Accepts back attributes ∧
        member = ⟨head.accessFlags, head.nameIndex, head.descriptorIndex, head.name, descriptor,
          attributes⟩ := by
  constructor
  · rintro ⟨hname, hdescriptor, htable⟩
    exact ⟨⟨_, _, _, _⟩, _, _, by simp only [List.append_assoc], ⟨hname, rfl⟩, _, _, hdescriptor,
      htable, rfl⟩
  · rintro ⟨head, _, _, rfl, ⟨hname, rfl⟩, descriptor, attributes, hdescriptor, htable, rfl⟩
    simp only [List.append_assoc]
    exact .intro hname hdescriptor htable

/-- Reads a member: a field, and a method too, apart from the names that a fault carries. -/
def decode (pool : ConstantPool) : Decoder ClassFault Member := do
  decodeBody pool (← decodeHead pool)

/-- A member is read from its bytes. -/
theorem reads_decode (pool : ConstantPool) : Reads (decode pool) fun _ ↦ MemberBytes pool := by
  refine ((reads_decodeHead pool).bind fun head ↦ reads_decodeBody pool head).congr
    fun position bytes member ↦ ?_
  rw [memberBytes_iff]
  rfl

/-- A field is read from its bytes. -/
theorem reads_decodeField (unit className : String) (pool : ConstantPool) :
    Reads (decodeField unit className pool) fun _ ↦ MemberBytes pool :=
  (reads_decode pool).mapFault _

/-- A method is read from its bytes. -/
theorem reads_decodeMethod (unit className : String) (pool : ConstantPool) :
    Reads (decodeMethod unit className pool) fun _ ↦ MemberBytes pool := by
  refine (((reads_decodeHead pool).mapFault _).bind fun head ↦
    (reads_decodeBody pool head).mapFault _).congr fun position bytes member ↦ ?_
  rw [memberBytes_iff]
  rfl

end Member

/-! ### Reading a class -/

namespace ClassFile

/-- A class file is read from its bytes. -/
theorem reads_decode (unit : String) : Reads (decode unit) fun _ ↦ ClassBytes unit := by
  refine ((ClassHeader.reads_decode.mapFault _).bind fun header ↦
    ((reads_decodeSuper header.pool).mapFault _).bind fun parent ↦
      (reads_interfaces.mapFault _).bind fun interfaces ↦
        (Reads.u16.mapFault _).bind fun fieldCount ↦
          ((Member.reads_decodeField unit header.name header.pool).times fieldCount.toNat).bind
            fun fields ↦ (Reads.u16.mapFault _).bind fun methodCount ↦
              ((Member.reads_decodeMethod unit header.name header.pool).times
                methodCount.toNat).bind fun methods ↦
                  ((Attribute.reads_decodeTable header.pool).mapFault _).bind_pure _).congr
    fun position bytes classFile ↦ ?_
  constructor
  · rintro ⟨header, _, _, rfl, hheader, ⟨superClass, superName?⟩, _, _, rfl, hsuper,
      interfaces, _, _, rfl, hinterfaces, fieldCount, _, _, rfl, rfl, fields, _, _, rfl,
      ⟨hfieldCount, hfields⟩, methodCount, _, _, rfl, rfl, methods, _, _, rfl,
      ⟨hmethodCount, hmethods⟩, attributes, hattributes, rfl⟩
    have hclass : ClassBytes unit _ _ := .intro hheader hsuper hinterfaces
      (.intro fieldCount hfieldCount hfields) (.intro methodCount hmethodCount hmethods) hattributes
    simpa only [List.append_assoc] using hclass
  · rintro ⟨hheader, hsuper, hinterfaces, ⟨fieldCount, hfieldCount, hfields⟩,
      ⟨methodCount, hmethodCount, hmethods⟩, hattributes⟩
    simp only [List.append_assoc]
    exact ⟨_, _, _, rfl, hheader, (_, _), _, _, rfl, hsuper, _, _, _, rfl, hinterfaces, fieldCount,
      _, _, rfl, rfl, _, _, _, rfl, ⟨hfieldCount, hfields⟩, methodCount, _, _, rfl, rfl, _, _, _,
      rfl, ⟨hmethodCount, hmethods⟩, _, hattributes, rfl⟩

/-- Bytes that are parsed as a class begin with the bytes of that class. -/
theorem exists_classBytes_of_parse {unit : String} {bytes : List UInt8} {classFile : ClassFile}
    (h : parse unit bytes = .ok classFile) :
    ∃ used tail, bytes = used ++ tail ∧ ClassBytes unit used classFile := by
  have hdecode : decode unit (Cursor.ofBytes bytes) =
      (.ok classFile, (decode unit (Cursor.ofBytes bytes)).2) := Prod.ext h rfl
  obtain ⟨used, hused, hbytes, -⟩ := (reads_decode unit _ _ _).mp hdecode
  exact ⟨used, _, hbytes, hused⟩

end ClassFile

end MonitorAudit
