import MonitorAudit.Bytecode.Opcode
import MonitorAudit.ClassFile.Fault

/-!
# Instructions

`Instruction.decode` reads one instruction at a cursor whose position is its offset in the code of
its method: the opcode, then the operands by the layout of the opcode. The operands of a switch
start at the next multiple of four from the start of the code. An instruction behind `wide` is
recorded with the opcode that `wide` modifies. Every fault carries the offset of the instruction,
and running out of bytes anywhere in it is one fault, `truncated`.

`Instruction.items` is the whole code: its instructions in order, ended by the first fault if there
is one. `InstructionStream` yields the same items one at a time, and `Instruction.decodeAll` keeps
either all instructions or the fault.
-/

set_option autoImplicit false

namespace MonitorAudit

/-- The operands of an instruction. Branch offsets count from the start of the instruction. -/
inductive Operands where
  | none
  | immediate (value : Int32)
  | constant (index : UInt16)
  | slot (index : UInt16)
  | increment (index : UInt16) (delta : Int16)
  | branch (offset : Int32)
  | arrayType (code : UInt8)
  | invokeInterface (index : UInt16) (count : UInt8)
  | invokeDynamic (index : UInt16)
  | multiNewArray (index : UInt16) (dimensions : UInt8)
  | tableSwitch (default low high : Int32) (offsets : List Int32)
  | lookupSwitch (default : Int32) (pairs : List (Int32 × Int32))
  deriving DecidableEq, Repr

/-- What an instruction says, apart from where it stands. -/
structure InstructionForm where
  /-- The opcode, or behind `wide` the opcode that is modified. -/
  opcode : UInt8
  /-- Whether `wide` stands in front. -/
  wide : Bool
  operands : Operands
  deriving DecidableEq, Repr

/-- An instruction and its place in the code of its method. -/
structure Instruction extends InstructionForm where
  /-- The offset of its first byte. -/
  offset : Nat
  /-- The number of its bytes, with `wide` and padding. -/
  length : Nat
  deriving DecidableEq, Repr

instance : OfEndOfData InstructionCause := ⟨fun _ ↦ .truncated⟩

namespace Instruction

/-- The mnemonic of the opcode. -/
def mnemonic (instruction : Instruction) : String :=
  (Opcode.mnemonic? instruction.opcode).getD "<unknown>"

/-- The offset of the byte behind the instruction. -/
def nextOffset (instruction : Instruction) : Nat := instruction.offset + instruction.length

/-! ### One instruction -/

/-- Passes over the bytes up to the next multiple of four. -/
def skipPadding : Decoder InstructionCause Unit := do
  let position ← Decoder.position
  Decoder.skip ((4 - position % 4) % 4)

/-- Reads a table of branch offsets, one for each number from the low to the high bound. -/
def decodeTableSwitch : Decoder InstructionCause Operands := do
  skipPadding
  let default ← Decoder.i32
  let low ← Decoder.i32
  let high ← Decoder.i32
  if high < low then Decoder.fail .malformedSwitch
  else do
    let offsets ← Decoder.times (high.toInt - low.toInt + 1).toNat Decoder.i32
    return .tableSwitch default low high offsets

/-- Reads a table of keys and branch offsets, as many as its count says. -/
def decodeLookupSwitch : Decoder InstructionCause Operands := do
  skipPadding
  let default ← Decoder.i32
  let count ← Decoder.i32
  if count < 0 then Decoder.fail .malformedSwitch
  else do
    let pairs ← Decoder.times count.toInt.toNat do
      let key ← Decoder.i32
      let target ← Decoder.i32
      return (key, target)
    return .lookupSwitch default pairs

/-- Reads an opcode behind `wide` and its widened operands. -/
def decodeWide : Decoder InstructionCause InstructionForm := do
  let opcode ← Decoder.u8
  if Opcode.isWidenable opcode then do
    let index ← Decoder.u16
    if opcode = Opcode.iinc then return ⟨opcode, true, .increment index (← Decoder.i16)⟩
    else return ⟨opcode, true, .slot index⟩
  else Decoder.fail (.badWideTarget opcode)

/-- Reads what stands behind an opcode of the layout. -/
def decodeBehind (opcode : UInt8) : Layout → Decoder InstructionCause InstructionForm
  | .none => return ⟨opcode, false, .none⟩
  | .signedByte => do return ⟨opcode, false, .immediate (← Decoder.i8).toInt32⟩
  | .signedShort => do return ⟨opcode, false, .immediate (← Decoder.i16).toInt32⟩
  | .constant8 => do return ⟨opcode, false, .constant (← Decoder.u8).toUInt16⟩
  | .constant16 => do return ⟨opcode, false, .constant (← Decoder.u16)⟩
  | .slot => do return ⟨opcode, false, .slot (← Decoder.u8).toUInt16⟩
  | .increment => do
    let index ← Decoder.u8
    let delta ← Decoder.i8
    return ⟨opcode, false, .increment index.toUInt16 delta.toInt16⟩
  | .branch16 => do return ⟨opcode, false, .branch (← Decoder.i16).toInt32⟩
  | .branch32 => do return ⟨opcode, false, .branch (← Decoder.i32)⟩
  | .arrayType => do return ⟨opcode, false, .arrayType (← Decoder.u8)⟩
  | .invokeInterface => do
    let index ← Decoder.u16
    let count ← Decoder.u8
    Decoder.skip 1
    return ⟨opcode, false, .invokeInterface index count⟩
  | .invokeDynamic => do
    let index ← Decoder.u16
    Decoder.skip 2
    return ⟨opcode, false, .invokeDynamic index⟩
  | .multiNewArray => do
    let index ← Decoder.u16
    let dimensions ← Decoder.u8
    return ⟨opcode, false, .multiNewArray index dimensions⟩
  | .tableSwitch => do return ⟨opcode, false, ← decodeTableSwitch⟩
  | .lookupSwitch => do return ⟨opcode, false, ← decodeLookupSwitch⟩
  | .wide => decodeWide

/-- Reads an opcode and its operands. -/
def decodeForm : Decoder InstructionCause InstructionForm := do
  let opcode ← Decoder.u8
  match Opcode.layout? opcode with
  | some layout => decodeBehind opcode layout
  | none => Decoder.fail (.unknownOpcode opcode)

/-- Reads the instruction at the cursor. -/
def decode : Decoder InstructionFault Instruction := do
  let start ← Decoder.position
  let form ← decodeForm.mapFault (InstructionFault.mk start)
  let stop ← Decoder.position
  return { form with offset := start, length := stop - start }

/-! ### Decoding consumes bytes -/

open Decoder (OnlyAdvances Consumes)

theorem onlyAdvances_skipPadding : OnlyAdvances skipPadding :=
  OnlyAdvances.position.bind fun _ ↦ .skip _

theorem onlyAdvances_decodeTableSwitch : OnlyAdvances decodeTableSwitch := by
  refine onlyAdvances_skipPadding.bind fun _ ↦ OnlyAdvances.i32.bind fun _ ↦
    OnlyAdvances.i32.bind fun low ↦ OnlyAdvances.i32.bind fun high ↦ ?_
  split
  · exact .fail _
  · exact (OnlyAdvances.i32.times _).bind fun _ ↦ .pure _

theorem onlyAdvances_decodeLookupSwitch : OnlyAdvances decodeLookupSwitch := by
  refine onlyAdvances_skipPadding.bind fun _ ↦ OnlyAdvances.i32.bind fun _ ↦
    OnlyAdvances.i32.bind fun count ↦ ?_
  split
  · exact .fail _
  · refine OnlyAdvances.bind (OnlyAdvances.times ?_ _) fun _ ↦ .pure _
    exact OnlyAdvances.i32.bind fun _ ↦ OnlyAdvances.i32.bind fun _ ↦ .pure _

theorem onlyAdvances_decodeWide : OnlyAdvances decodeWide := by
  refine OnlyAdvances.u8.bind fun opcode ↦ ?_
  split
  · refine OnlyAdvances.u16.bind fun index ↦ ?_
    split
    · exact OnlyAdvances.i16.bind fun _ ↦ .pure _
    · exact .pure _
  · exact .fail _

theorem onlyAdvances_decodeBehind (opcode : UInt8) (layout : Layout) :
    OnlyAdvances (decodeBehind opcode layout) := by
  cases layout with
  | none => exact .pure _
  | signedByte => exact OnlyAdvances.i8.bind fun _ ↦ .pure _
  | signedShort => exact OnlyAdvances.i16.bind fun _ ↦ .pure _
  | constant8 => exact OnlyAdvances.u8.bind fun _ ↦ .pure _
  | constant16 => exact OnlyAdvances.u16.bind fun _ ↦ .pure _
  | slot => exact OnlyAdvances.u8.bind fun _ ↦ .pure _
  | increment => exact OnlyAdvances.u8.bind fun _ ↦ OnlyAdvances.i8.bind fun _ ↦ .pure _
  | branch16 => exact OnlyAdvances.i16.bind fun _ ↦ .pure _
  | branch32 => exact OnlyAdvances.i32.bind fun _ ↦ .pure _
  | arrayType => exact OnlyAdvances.u8.bind fun _ ↦ .pure _
  | invokeInterface =>
    exact OnlyAdvances.u16.bind fun _ ↦ OnlyAdvances.u8.bind fun _ ↦
      (OnlyAdvances.skip 1).bind fun _ ↦ .pure _
  | invokeDynamic =>
    exact OnlyAdvances.u16.bind fun _ ↦ (OnlyAdvances.skip 2).bind fun _ ↦ .pure _
  | multiNewArray => exact OnlyAdvances.u16.bind fun _ ↦ OnlyAdvances.u8.bind fun _ ↦ .pure _
  | tableSwitch => exact onlyAdvances_decodeTableSwitch.bind fun _ ↦ .pure _
  | lookupSwitch => exact onlyAdvances_decodeLookupSwitch.bind fun _ ↦ .pure _
  | wide => exact onlyAdvances_decodeWide

theorem consumes_decodeForm : Consumes decodeForm := by
  refine Consumes.u8.bind fun opcode ↦ ?_
  split
  · exact onlyAdvances_decodeBehind opcode _
  · exact .fail _

theorem consumes_decode : Consumes decode :=
  Consumes.bind_right .position fun _ ↦ (consumes_decodeForm.mapFault _).bind fun _ ↦
    OnlyAdvances.position.bind fun _ ↦ .pure _

/-! ### All instructions -/

/-- Decodes from the cursor on, behind the items already decoded, which come last first. -/
def itemsOnto (items : List (Except InstructionFault Instruction)) (cursor : Cursor) :
    List (Except InstructionFault Instruction) :=
  if cursor.isEmpty then items.reverse
  else
    match _h : decode cursor with
    | (.ok instruction, moved) => itemsOnto (.ok instruction :: items) moved
    | (.error fault, _) => (.error fault :: items).reverse
termination_by cursor.rest.length
decreasing_by exact consumes_decode cursor instruction moved ‹_›

/-- The instructions from the cursor on, ended by the first fault if there is one. -/
def itemsFrom (cursor : Cursor) : List (Except InstructionFault Instruction) := itemsOnto [] cursor

/-- The instructions of a method's code, ended by the first fault if there is one. -/
def items (code : List UInt8) : List (Except InstructionFault Instruction) :=
  itemsFrom (Cursor.ofBytes code)

/-- All instructions of a method's code, or the first fault. -/
def decodeAll (code : List UInt8) : Except InstructionFault (List Instruction) :=
  (items code).mapM id

end Instruction

/-- The instructions of a method's code, from a place in it on. -/
structure InstructionStream where
  cursor : Cursor
  /-- Whether a fault has been yielded, which ends the stream. -/
  failed : Bool
  deriving DecidableEq, Repr

namespace InstructionStream

/-- The stream over the whole code. -/
def ofCode (code : List UInt8) : InstructionStream := ⟨Cursor.ofBytes code, false⟩

/-- The next item, if there is one, and the stream behind it. -/
def next? (stream : InstructionStream) :
    Option (Except InstructionFault Instruction) × InstructionStream :=
  if stream.failed || stream.cursor.isEmpty then (none, stream)
  else
    match Instruction.decode stream.cursor with
    | (.ok instruction, moved) => (some (.ok instruction), ⟨moved, false⟩)
    | (.error fault, _) => (some (.error fault), ⟨stream.cursor, true⟩)

/-- The items that are still to come. -/
def items (stream : InstructionStream) : List (Except InstructionFault Instruction) :=
  if stream.failed then [] else Instruction.itemsFrom stream.cursor

/-- The stream after the last item. -/
def drained (stream : InstructionStream) : InstructionStream :=
  ⟨⟨[], stream.cursor.position + stream.cursor.remaining⟩, stream.failed⟩

end InstructionStream

end MonitorAudit
