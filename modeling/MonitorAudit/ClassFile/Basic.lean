import MonitorAudit.ClassFile.AttributeRecord

/-!
# Class files

A `ClassFile` is a compiled class: its version, its place among other classes, its fields and
methods, and its attributes, with the constant pool to which their indices refer. Fields and
methods have one shape, `Member`.

`ClassFile.parse` reads one from bytes. A fault that it reports carries the name of the class from
the moment that name is known, and the name of a method from the moment that is known until its
attributes have been read. Bytes behind the last attribute of the class are left unread.
-/

set_option autoImplicit false

namespace MonitorAudit

/-! ### Access flags -/

/-- The properties of a class or a member that are looked at, one bit each. -/
inductive AccessFlag where
  | static
  | synchronized
  | native
  | interface
  | abstract
  deriving DecidableEq, Repr

/-- The bit of a property. -/
def AccessFlag.mask : AccessFlag → UInt16
  | static => 0x0008
  | synchronized => 0x0020
  | native => 0x0100
  | interface => 0x0200
  | abstract => 0x0400

/-- Whether the bit of a property is set. -/
def AccessFlag.isIn (flag : AccessFlag) (flags : UInt16) : Bool := flags &&& flag.mask ≠ 0

/-! ### Classes and their members -/

/-- A field or a method of a class. -/
structure Member where
  accessFlags : UInt16
  nameIndex : UInt16
  descriptorIndex : UInt16
  name : String
  descriptor : String
  attributes : List Attribute

/-- What a class file says in front of its members. -/
structure ClassHeader where
  minorVersion : UInt16
  majorVersion : UInt16
  pool : ConstantPool
  accessFlags : UInt16
  thisClass : UInt16
  /-- The name of the class, with dots between its parts. -/
  name : String

/-- A compiled class. -/
structure ClassFile extends ClassHeader where
  /-- What the class was read from, as diagnostics name it. -/
  unit : String
  /-- The superclass, or zero where there is none. -/
  superClass : UInt16
  superName? : Option String
  interfaces : List UInt16
  fields : List Member
  methods : List Member
  attributes : List Attribute

namespace Member

def isStatic (member : Member) : Bool := AccessFlag.static.isIn member.accessFlags

def isSynchronized (member : Member) : Bool := AccessFlag.synchronized.isIn member.accessFlags

def isNative (member : Member) : Bool := AccessFlag.native.isIn member.accessFlags

def isAbstract (member : Member) : Bool := AccessFlag.abstract.isIn member.accessFlags

/-- The body of a method: the first one where there are several. -/
def code? (member : Member) : Option Code :=
  member.attributes.findSome? fun
    | .code body => some body
    | _ => none

end Member

/-- The name of a class with dots in place of the slashes that the file has. -/
def dotted (name : String) : String := name.map fun c ↦ if c = '/' then '.' else c

namespace ClassFile

def isInterface (classFile : ClassFile) : Bool := AccessFlag.interface.isIn classFile.accessFlags

/-- The names of the interfaces that the class implements. -/
def interfaceNames? (classFile : ClassFile) : Except PoolFault (List String) :=
  classFile.interfaces.mapM fun index ↦ dotted <$> classFile.pool.className? index

/-- The source file that the class names, if its name is there. -/
def sourceFile? (classFile : ClassFile) : Option String :=
  classFile.attributes.findSome? fun
    | .sourceFile index => (classFile.pool.utf8? index).toOption
    | _ => none

end ClassFile

/-! ### Reading -/

/-- A use of the constant pool while a class is read. -/
def Decoder.ofPool {α : Type} (result : Except PoolFault α) : Decoder ClassFault α :=
  Decoder.ofExcept (result.mapError .pool)

namespace ClassHeader

/-- The word in front of every class file. -/
def magic : UInt32 := 0xCAFEBABE

/-- The oldest version that is read. -/
def oldestMajorVersion : UInt16 := 45

/-- Reads the front of a class file up to the name of the class. -/
def decode : Decoder ClassFault ClassHeader := do
  let found ← Decoder.u32
  if found ≠ magic then Decoder.fail (.malformed (.badMagic found))
  else
    let minorVersion ← Decoder.u16
    let majorVersion ← Decoder.u16
    if majorVersion < oldestMajorVersion then
      Decoder.fail (.malformed (.unsupportedVersion majorVersion minorVersion))
    else
      let pool ← ConstantPool.decode.mapFault .malformed
      let accessFlags ← Decoder.u16
      let thisClass ← Decoder.u16
      let name ← Decoder.ofPool (pool.className? thisClass)
      return ⟨minorVersion, majorVersion, pool, accessFlags, thisClass, dotted name⟩

end ClassHeader

namespace Member

/-- What is in front of the descriptor and the attributes of a member. -/
structure Head where
  accessFlags : UInt16
  nameIndex : UInt16
  descriptorIndex : UInt16
  name : String
  deriving DecidableEq, Repr

/-- Reads the front of a member and resolves its name. -/
def decodeHead (pool : ConstantPool) : Decoder ClassFault Head := do
  let accessFlags ← Decoder.u16
  let nameIndex ← Decoder.u16
  let descriptorIndex ← Decoder.u16
  let name ← Decoder.ofPool (pool.utf8? nameIndex)
  return ⟨accessFlags, nameIndex, descriptorIndex, name⟩

/-- Resolves the descriptor of a member and reads its attributes. -/
def decodeBody (pool : ConstantPool) (head : Head) : Decoder ClassFault Member := do
  let descriptor ← Decoder.ofPool (pool.utf8? head.descriptorIndex)
  let attributes ← Attribute.decodeTable pool
  return ⟨head.accessFlags, head.nameIndex, head.descriptorIndex, head.name, descriptor, attributes⟩

/-- Reads a field of the class named. -/
def decodeField (unit className : String) (pool : ConstantPool) : Decoder ScanFailure Member :=
  (do decodeBody pool (← decodeHead pool) : Decoder ClassFault Member).mapFault
    (ScanFailure.mk unit className none)

/-- Reads a method of the class named. -/
def decodeMethod (unit className : String) (pool : ConstantPool) : Decoder ScanFailure Member := do
  let head ← (decodeHead pool).mapFault (ScanFailure.mk unit className none)
  (decodeBody pool head).mapFault (ScanFailure.mk unit className head.name)

end Member

namespace ClassFile

/-- Reads the superclass: its index and its name. -/
def decodeSuper (pool : ConstantPool) : Decoder ClassFault (UInt16 × Option String) := do
  let superClass ← Decoder.u16
  if superClass = 0 then return (superClass, none)
  else
    let name ← Decoder.ofPool (pool.className? superClass)
    return (superClass, some (dotted name))

/-- Reads a class file from the unit named. -/
def decode (unit : String) : Decoder ScanFailure ClassFile := do
  let header ← ClassHeader.decode.mapFault (ScanFailure.mk unit none none)
  let inClass := ScanFailure.mk unit header.name none
  let (superClass, superName?) ← (decodeSuper header.pool).mapFault inClass
  let interfaces ← (Decoder.counted16 Decoder.u16).mapFault inClass
  let fieldCount ← Decoder.u16.mapFault inClass
  let fields ← Decoder.times fieldCount.toNat (Member.decodeField unit header.name header.pool)
  let methodCount ← Decoder.u16.mapFault inClass
  let methods ← Decoder.times methodCount.toNat (Member.decodeMethod unit header.name header.pool)
  let attributes ← (Attribute.decodeTable header.pool).mapFault inClass
  return { header with unit, superClass, superName?, interfaces, fields, methods, attributes }

/-- The class that the bytes of a unit hold. -/
def parse (unit : String) (bytes : List UInt8) : Except ScanFailure ClassFile :=
  (decode unit (Cursor.ofBytes bytes)).1

end ClassFile

end MonitorAudit
