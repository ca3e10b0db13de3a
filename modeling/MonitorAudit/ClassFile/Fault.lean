import MonitorAudit.ClassFile.Constant
import MonitorAudit.Text.Hexadecimal

/-!
# Faults of a class file

Four families of fault, each with its wording: the file itself (`MalformedClass`), a use of the
constant pool (`PoolFault`), an attribute record (`AttributeFault`) and an instruction
(`InstructionFault`). `ClassFault` is any of them, and `ScanFailure` is one with the unit, class
and method in which it was met. Offsets count from the start of the file, those of instructions
from the start of their method's code.
-/

set_option autoImplicit false

namespace MonitorAudit

/-- What is wrong with the file itself. -/
inductive MalformedClass where
  | badMagic (found : UInt32)
  | unsupportedVersion (major minor : UInt16)
  | truncated (offset wanted : Nat)
  | badConstantTag (tag : UInt8) (index : UInt16) (offset : Nat)
  deriving DecidableEq, Repr

/-- What is wrong with a use of the constant pool. -/
inductive PoolFault where
  | badIndex (index count : UInt16)
  | typeMismatch (index : UInt16) (expected found : ConstantKind)
  deriving DecidableEq, Repr

/-- What is wrong with an attribute record. -/
inductive AttributeFault where
  | sizeMismatch (name : String) (offset : Nat) (declared : UInt32) (consumed : Nat)
  | invalidTag (name : String) (offset : Nat) (tag : UInt8)
  | tooDeep (name : String) (offset limit : Nat)
  | misplaced (name : String) (offset : Nat) (parent : String)
  deriving DecidableEq, Repr

/-- Why an instruction does not decode. -/
inductive InstructionCause where
  | unknownOpcode (opcode : UInt8)
  | truncated
  | badWideTarget (opcode : UInt8)
  | malformedSwitch
  deriving DecidableEq, Repr

/-- An instruction that does not decode, with the offset at which it starts. -/
structure InstructionFault where
  offset : Nat
  cause : InstructionCause
  deriving DecidableEq, Repr

/-- Any fault of a class file. -/
inductive ClassFault where
  | malformed (fault : MalformedClass)
  | pool (fault : PoolFault)
  | record (fault : AttributeFault)
  | instruction (fault : InstructionFault)
  deriving DecidableEq, Repr

/-- A fault together with the unit in which it was met and as much of the place inside it as was
known by then. -/
structure ScanFailure where
  unit : String
  className? : Option String
  methodName? : Option String
  fault : ClassFault
  deriving DecidableEq, Repr

instance : OfEndOfData MalformedClass where
  ofEndOfData failure := .truncated failure.offset failure.wanted

instance : OfEndOfData ClassFault where
  ofEndOfData failure := .malformed (.truncated failure.offset failure.wanted)

/-! ### Wording -/

/-- A number as `0x` and at least `width` lower-case digits. -/
def hexNumber (width value : Nat) : String := "0x" ++ Hexadecimal.padded width value

def MalformedClass.message : MalformedClass → String
  | badMagic found => s!"bad magic {hexNumber 8 found.toNat}, expected 0xcafebabe"
  | unsupportedVersion major minor => s!"unsupported class file version {major}.{minor}"
  | truncated offset wanted =>
    s!"truncated class file at offset {offset} (wanted {wanted} more bytes)"
  | badConstantTag tag index offset =>
    s!"bad constant pool tag {tag} for entry #{index} at offset {offset}"

def PoolFault.message : PoolFault → String
  | badIndex index count => s!"bad constant pool index #{index} (pool count {count})"
  | typeMismatch index expected found =>
    s!"constant pool entry #{index} is {found.name}, expected {expected.name}"

def AttributeFault.message : AttributeFault → String
  | sizeMismatch name offset declared consumed =>
    s!"{name} attribute at offset {offset} declares {declared} bytes but its structure " ++
      s!"needs {consumed}"
  | invalidTag name offset tag => s!"{name} attribute has invalid tag {tag} at offset {offset}"
  | tooDeep name offset limit =>
    s!"{name} attribute nests deeper than {limit} levels at offset {offset}"
  | misplaced name offset parent =>
    s!"{name} attribute at offset {offset} is not allowed inside {parent}"

def InstructionFault.message (fault : InstructionFault) : String :=
  match fault.cause with
  | .unknownOpcode opcode =>
    s!"unknown opcode {hexNumber 2 opcode.toNat} at offset {fault.offset}"
  | .truncated => s!"truncated instruction at offset {fault.offset}"
  | .badWideTarget opcode =>
    s!"wide prefix at offset {fault.offset} applied to {hexNumber 2 opcode.toNat}"
  | .malformedSwitch => s!"malformed switch table at offset {fault.offset}"

def ClassFault.message : ClassFault → String
  | malformed fault => fault.message
  | pool fault => fault.message
  | record fault => fault.message
  | instruction fault => fault.message

/-- The unit, the fault, and in parentheses the place inside the unit as far as it is known. -/
def ScanFailure.message (failure : ScanFailure) : String :=
  let place := match failure.className?, failure.methodName? with
    | some className, some methodName => s!" (in {className}#{methodName})"
    | some className, none => s!" (in {className})"
    | none, some methodName => s!" (in method {methodName})"
    | none, none => ""
  s!"{failure.unit}: {failure.fault.message}{place}"

end MonitorAudit
