import MonitorAudit.ClassFile.Basic
import MonitorAudit.Proofs.Checked.Attribute

/-!
# Class files with machine arithmetic

A class file is read from a reader at the start of its bytes. If these are fewer than `2 ^ 63`, no
operation fails, and what is read is what `ClassFile.parse` answers (`ClassFile.checkedParse_eq`).
-/

set_option autoImplicit false

namespace MonitorAudit

open Checked (AgreesUpTo Agrees)

instance : CountsMissing ScanFailure := ⟨fun failure ↦ missing failure.fault⟩

/-- Reads the front of a class file up to the name of the class. -/
def ClassHeader.checked : Checked ClassFault ClassHeader := do
  let found ← Checked.u32
  if found ≠ magic then Checked.fail (.malformed (.badMagic found))
  else
    let minorVersion ← Checked.u16
    let majorVersion ← Checked.u16
    if majorVersion < oldestMajorVersion then
      Checked.fail (.malformed (.unsupportedVersion majorVersion minorVersion))
    else
      let pool ← ConstantPool.checked.mapFault .malformed
      let accessFlags ← Checked.u16
      let thisClass ← Checked.u16
      let name ← Checked.ofPool (pool.checkedClassName? thisClass)
      return ⟨minorVersion, majorVersion, pool, accessFlags, thisClass, dotted name⟩

namespace Member

/-- Reads the front of a member and resolves its name. -/
def checkedHead (pool : ConstantPool) : Checked ClassFault Head := do
  let accessFlags ← Checked.u16
  let nameIndex ← Checked.u16
  let descriptorIndex ← Checked.u16
  let name ← Checked.ofPool (pool.checkedUtf8? nameIndex)
  return ⟨accessFlags, nameIndex, descriptorIndex, name⟩

/-- Resolves the descriptor of a member and reads its attributes. -/
def checkedBody (pool : ConstantPool) (head : Head) : Checked ClassFault Member := do
  let descriptor ← Checked.ofPool (pool.checkedUtf8? head.descriptorIndex)
  let attributes ← Attribute.checkedTable pool
  return ⟨head.accessFlags, head.nameIndex, head.descriptorIndex, head.name, descriptor, attributes⟩

/-- Reads a field of the class named. -/
def checkedField (unit className : String) (pool : ConstantPool) : Checked ScanFailure Member :=
  (do checkedBody pool (← checkedHead pool) : Checked ClassFault Member).mapFault
    (ScanFailure.mk unit className none)

/-- Reads a method of the class named. -/
def checkedMethod (unit className : String) (pool : ConstantPool) : Checked ScanFailure Member := do
  let head ← (checkedHead pool).mapFault (ScanFailure.mk unit className none)
  (checkedBody pool head).mapFault (ScanFailure.mk unit className head.name)

end Member

namespace ClassFile

/-- Reads the superclass: its index and its name. -/
def checkedSuper (pool : ConstantPool) : Checked ClassFault (UInt16 × Option String) := do
  let superClass ← Checked.u16
  if superClass = 0 then return (superClass, none)
  else
    let name ← Checked.ofPool (pool.checkedClassName? superClass)
    return (superClass, some (dotted name))

/-- Reads a class file from the unit named, and counts the bytes behind it. -/
def checked (unit : String) : Checked ScanFailure ClassFile := do
  let header ← ClassHeader.checked.mapFault (ScanFailure.mk unit none none)
  let inClass := ScanFailure.mk unit header.name none
  let (superClass, superName?) ← (checkedSuper header.pool).mapFault inClass
  let interfaces ← (Checked.counted16 Checked.u16).mapFault inClass
  let fieldCount ← Checked.u16.mapFault inClass
  let fields ← Checked.times (Member.checkedField unit header.name header.pool) fieldCount.toNat
  let methodCount ← Checked.u16.mapFault inClass
  let methods ← Checked.times (Member.checkedMethod unit header.name header.pool) methodCount.toNat
  let attributes ← (Attribute.checkedTable header.pool).mapFault inClass
  let _ ← Checked.remaining
  return { header with unit, superClass, superName?, interfaces, fields, methods, attributes }

/-- The class that the bytes of a unit hold. -/
def checkedParse (unit : String) (bytes : List UInt8) : Option (Except ScanFailure ClassFile) :=
  (checked unit).run? (.ofBytes bytes)

end ClassFile

/-! ### Agreement -/

/-- The place of a fault does not count any bytes. -/
theorem Checked.AgreesUpTo.located {α : Type} {checked : Checked ClassFault α}
    {decoder : Decoder ClassFault α} (h : Agrees checked decoder) (unit : String)
    (className? methodName? : Option String) :
    Agrees (checked.mapFault (ScanFailure.mk unit className? methodName?))
      (decoder.mapFault (ScanFailure.mk unit className? methodName?)) :=
  h.mapFault fun _ ↦ Nat.le_refl _

theorem ClassHeader.agrees_checked : Agrees checked decode := by
  refine AgreesUpTo.u32.bind fun found ↦ .ite (fun _ ↦ .refuse rfl) fun _ ↦ ?_
  refine AgreesUpTo.u16.bind fun minorVersion ↦ AgreesUpTo.u16.bind fun majorVersion ↦
    .ite (fun _ ↦ .refuse rfl) fun _ ↦ ?_
  have hpool : Agrees (ConstantPool.checked.mapFault ClassFault.malformed)
      (ConstantPool.decode.mapFault .malformed) :=
    ConstantPool.agrees_checked.mapFault fun _ ↦ Nat.le_refl _
  refine hpool.bind fun pool ↦ AgreesUpTo.u16.bind fun accessFlags ↦
    AgreesUpTo.u16.bind fun thisClass ↦ ?_
  rw [pool.checkedClassName?_eq]
  exact (AgreesUpTo.ofPool _).map _

namespace Member

variable (unit className : String) (pool : ConstantPool)

theorem agrees_checkedHead : Agrees (checkedHead pool) (decodeHead pool) := by
  refine AgreesUpTo.u16.bind fun accessFlags ↦ AgreesUpTo.u16.bind fun nameIndex ↦
    AgreesUpTo.u16.bind fun descriptorIndex ↦ ?_
  rw [pool.checkedUtf8?_eq]
  exact (AgreesUpTo.ofPool _).map _

theorem agrees_checkedBody (head : Head) :
    Agrees (checkedBody pool head) (decodeBody pool head) := by
  rw [checkedBody, pool.checkedUtf8?_eq]
  exact (AgreesUpTo.ofPool _).bind fun descriptor ↦ (Attribute.agrees_checkedTable pool).map _

theorem agrees_checkedField :
    Agrees (checkedField unit className pool) (decodeField unit className pool) :=
  ((agrees_checkedHead pool).bind (agrees_checkedBody pool)).located unit className none

theorem agrees_checkedMethod :
    Agrees (checkedMethod unit className pool) (decodeMethod unit className pool) :=
  ((agrees_checkedHead pool).located unit className none).bind fun head ↦
    (agrees_checkedBody pool head).located unit className head.name

end Member

namespace ClassFile

theorem agrees_checkedSuper (pool : ConstantPool) :
    Agrees (checkedSuper pool) (decodeSuper pool) := by
  refine AgreesUpTo.u16.bind fun superClass ↦ .ite (fun _ ↦ .pure _) fun _ ↦ ?_
  rw [pool.checkedClassName?_eq]
  exact (AgreesUpTo.ofPool _).map _

theorem agrees_checked (unit : String) : Agrees (checked unit) (decode unit) := by
  refine (ClassHeader.agrees_checked.located unit none none).bind fun header ↦ ?_
  refine ((agrees_checkedSuper header.pool).located unit header.name none).bind
    fun (superClass, superName?) ↦ ?_
  refine ((AgreesUpTo.counted16 AgreesUpTo.u16).located unit header.name none).bind
    fun interfaces ↦ ?_
  have word : Agrees (Checked.u16.mapFault (ScanFailure.mk unit header.name none)) _ :=
    AgreesUpTo.u16.located unit header.name none
  refine word.bind fun fieldCount ↦ ?_
  refine ((Member.agrees_checkedField unit header.name header.pool).times _).bind fun fields ↦ ?_
  refine word.bind fun methodCount ↦ ?_
  refine ((Member.agrees_checkedMethod unit header.name header.pool).times _).bind fun methods ↦ ?_
  refine ((Attribute.agrees_checkedTable header.pool).located unit header.name none).bind
    fun attributes ↦ ?_
  exact .remaining_bind fun _ ↦ AgreesUpTo.pure _ _

/-- No operation fails while a class file is read. -/
theorem checkedParse_eq (unit : String) {bytes : List UInt8} (h : bytes.length < 2 ^ 63) :
    checkedParse unit bytes = some (parse unit bytes) :=
  (agrees_checked unit).run?_eq (Reader.isValid_ofBytes h)

end ClassFile

end MonitorAudit
