import Mathlib.Data.List.Basic
import MonitorAudit.Bytecode.Instruction
import MonitorAudit.Proofs.Bytes.Format

/-!
# Assembled code

`Assembly offset code instructions` says that the bytes `code`, standing at `offset` in the code of
a method, are the instructions laid out back to back. It is built from two relations that mention no
decoder: `OperandBytes`, the operand bytes of each layout, with the padding of a switch counted from
the start of the code, and `InstructionBytes`, an opcode with the operands of its layout behind it.
The layout of an opcode is that of its stretch of the instruction set (`Opcode.stretches`), which
`Opcode.layout?_eq_stretchLayout?` compares with the table row by row.

`reads_decode` says that the decoder of one instruction reads `InstructionBytes`, and
`decodeAll_eq_ok_iff_assembly` that a code decodes to a list of instructions exactly if it is the
assembly of that list: nothing else is accepted, and nothing is read differently.
-/

set_option autoImplicit false

namespace MonitorAudit

namespace Opcode

/-! ### The instruction set in stretches -/

/-- The first opcode, the last opcode and the layout of each stretch of the instruction set. -/
def stretches : List (Nat × Nat × Layout) :=
  [(0x00, 0x0F, .none), (0x10, 0x10, .signedByte), (0x11, 0x11, .signedShort),
    (0x12, 0x12, .constant8), (0x13, 0x14, .constant16), (0x15, 0x19, .slot), (0x1A, 0x35, .none),
    (0x36, 0x3A, .slot), (0x3B, 0x83, .none), (0x84, 0x84, .increment), (0x85, 0x98, .none),
    (0x99, 0xA8, .branch16), (0xA9, 0xA9, .slot), (0xAA, 0xAA, .tableSwitch),
    (0xAB, 0xAB, .lookupSwitch), (0xAC, 0xB1, .none), (0xB2, 0xB8, .constant16),
    (0xB9, 0xB9, .invokeInterface), (0xBA, 0xBA, .invokeDynamic), (0xBB, 0xBB, .constant16),
    (0xBC, 0xBC, .arrayType), (0xBD, 0xBD, .constant16), (0xBE, 0xBF, .none),
    (0xC0, 0xC1, .constant16), (0xC2, 0xC3, .none), (0xC4, 0xC4, .wide),
    (0xC5, 0xC5, .multiNewArray), (0xC6, 0xC7, .branch16), (0xC8, 0xC9, .branch32)]

/-- The layout of the stretch in which an opcode lies. -/
def stretchLayout? (opcode : UInt8) : Option Layout :=
  (stretches.find? fun (first, last, _) ↦ first ≤ opcode.toNat ∧ opcode.toNat ≤ last).map (·.2.2)

/-- The table gives each opcode the layout of its stretch, and no other byte a layout. -/
theorem layout?_eq_stretchLayout? (opcode : UInt8) : layout? opcode = stretchLayout? opcode := by
  have hall : ∀ number < 256,
      layout? (UInt8.ofNat number) = stretchLayout? (UInt8.ofNat number) := by
    decide +kernel
  simpa using hall opcode.toNat opcode.toNat_lt

/-- The opcodes that `wide` may modify are those that name a local variable. -/
theorem isWidenable_iff (opcode : UInt8) :
    isWidenable opcode = true ↔
      stretchLayout? opcode = some .slot ∨ stretchLayout? opcode = some .increment := by
  simp [isWidenable, layout?_eq_stretchLayout?]

/-- One opcode adds a number to a local variable. -/
theorem stretchLayout?_eq_increment_iff (opcode : UInt8) :
    stretchLayout? opcode = some .increment ↔ opcode = iinc := by
  have hall : ∀ number < 256, stretchLayout? (UInt8.ofNat number) = some .increment ↔
      UInt8.ofNat number = iinc := by
    decide +kernel
  simpa using hall opcode.toNat opcode.toNat_lt

end Opcode

/-! ### The layout of bytes -/

/-- Bytes, whatever they are, from an offset of the code up to the next multiple of four. -/
structure PadsToFour (start : Nat) (padding : List UInt8) : Prop where
  length_lt : padding.length < 4
  aligned : (start + padding.length) % 4 = 0

/-- The bytes of a key of a lookup switch and of the branch offset for it. -/
def switchPair (pair : Int32 × Int32) : List UInt8 := signed32 pair.1 ++ signed32 pair.2

/-- Which bytes stand behind an opcode of a layout, given the offset at which they start, and what
the instruction then says. -/
inductive OperandBytes (start : Nat) (opcode : UInt8) :
    Layout → List UInt8 → InstructionForm → Prop
  | none : OperandBytes start opcode .none [] ⟨opcode, false, .none⟩
  | signedByte (value : Int8) :
    OperandBytes start opcode .signedByte [signed8 value]
      ⟨opcode, false, .immediate value.toInt32⟩
  | signedShort (value : Int16) :
    OperandBytes start opcode .signedShort (signed16 value)
      ⟨opcode, false, .immediate value.toInt32⟩
  | constant8 (index : UInt8) :
    OperandBytes start opcode .constant8 [index] ⟨opcode, false, .constant index.toUInt16⟩
  | constant16 (index : UInt16) :
    OperandBytes start opcode .constant16 (word16 index) ⟨opcode, false, .constant index⟩
  | slot (index : UInt8) :
    OperandBytes start opcode .slot [index] ⟨opcode, false, .slot index.toUInt16⟩
  | increment (index : UInt8) (delta : Int8) :
    OperandBytes start opcode .increment [index, signed8 delta]
      ⟨opcode, false, .increment index.toUInt16 delta.toInt16⟩
  | branch16 (offset : Int16) :
    OperandBytes start opcode .branch16 (signed16 offset) ⟨opcode, false, .branch offset.toInt32⟩
  | branch32 (offset : Int32) :
    OperandBytes start opcode .branch32 (signed32 offset) ⟨opcode, false, .branch offset⟩
  | arrayType (code : UInt8) :
    OperandBytes start opcode .arrayType [code] ⟨opcode, false, .arrayType code⟩
  | invokeInterface (index : UInt16) (count ignored : UInt8) :
    OperandBytes start opcode .invokeInterface (word16 index ++ [count, ignored])
      ⟨opcode, false, .invokeInterface index count⟩
  | invokeDynamic (index : UInt16) (ignored ignored' : UInt8) :
    OperandBytes start opcode .invokeDynamic (word16 index ++ [ignored, ignored'])
      ⟨opcode, false, .invokeDynamic index⟩
  | multiNewArray (index : UInt16) (dimensions : UInt8) :
    OperandBytes start opcode .multiNewArray (word16 index ++ [dimensions])
      ⟨opcode, false, .multiNewArray index dimensions⟩
  | tableSwitch {padding : List UInt8} {default low high : Int32} {offsets : List Int32}
      (padded : PadsToFour start padding) (low_le_high : low.toInt ≤ high.toInt)
      (length_eq : (offsets.length : Int) = high.toInt - low.toInt + 1) :
    OperandBytes start opcode .tableSwitch
      (padding ++ signed32 default ++ signed32 low ++ signed32 high ++ offsets.flatMap signed32)
      ⟨opcode, false, .tableSwitch default low high offsets⟩
  | lookupSwitch {padding : List UInt8} {default count : Int32} {pairs : List (Int32 × Int32)}
      (padded : PadsToFour start padding) (length_eq : (pairs.length : Int) = count.toInt) :
    OperandBytes start opcode .lookupSwitch
      (padding ++ signed32 default ++ signed32 count ++ pairs.flatMap switchPair)
      ⟨opcode, false, .lookupSwitch default pairs⟩
  | wideSlot {target : UInt8} (widened : Opcode.stretchLayout? target = some .slot)
      (index : UInt16) :
    OperandBytes start opcode .wide (target :: word16 index) ⟨target, true, .slot index⟩
  | wideIncrement {target : UInt8} (widened : Opcode.stretchLayout? target = some .increment)
      (index : UInt16) (delta : Int16) :
    OperandBytes start opcode .wide (target :: (word16 index ++ signed16 delta))
      ⟨target, true, .increment index delta⟩

/-- Which bytes are an instruction, given the offset of its opcode: the opcode and its operands. -/
inductive InstructionBytes (offset : Nat) : List UInt8 → InstructionForm → Prop
  | intro {opcode : UInt8} {layout : Layout} {operands : List UInt8} {form : InstructionForm}
      (known : Opcode.stretchLayout? opcode = some layout)
      (behind : OperandBytes (offset + 1) opcode layout operands form) :
    InstructionBytes offset (opcode :: operands) form

/-- Which bytes, standing at an offset of the code, are the instructions one behind the other. -/
inductive Assembly : Nat → List UInt8 → List Instruction → Prop
  | nil (offset : Nat) : Assembly offset [] []
  | cons {offset : Nat} {bytes rest : List UInt8} {form : InstructionForm}
      {instructions : List Instruction} (head : InstructionBytes offset bytes form)
      (tail : Assembly (offset + bytes.length) rest instructions) :
    Assembly offset (bytes ++ rest) (⟨form, offset, bytes.length⟩ :: instructions)

/-! ### Where assembled instructions stand -/

/-- An instruction has at least the byte of its opcode. -/
theorem InstructionBytes.length_pos {offset : Nat} {bytes : List UInt8} {form : InstructionForm}
    (h : InstructionBytes offset bytes form) : 0 < bytes.length := by
  cases h with
  | intro known behind => exact Nat.succ_pos _

/-- No assembled instruction starts in front of the code. -/
theorem Assembly.le_offset {offset : Nat} {code : List UInt8} {instructions : List Instruction}
    (h : Assembly offset code instructions) :
    ∀ instruction ∈ instructions, offset ≤ instruction.offset := by
  induction h with
  | nil offset => simp
  | cons head tail ih =>
    intro instruction hmem
    rcases List.mem_cons.mp hmem with rfl | hmem
    · exact Nat.le_refl _
    · exact Nat.le_trans (Nat.le_add_right _ _) (ih instruction hmem)

namespace Instruction

open Decoder (Reads)

/-! ### One instruction -/

/-- The bytes passed over in front of a switch are its padding. -/
theorem reads_skipPadding :
    Reads skipPadding fun position bytes _ ↦ PadsToFour position bytes := by
  refine (Reads.position_bind fun start ↦ Reads.skip ((4 - start % 4) % 4)).congr
    fun position bytes value ↦ ?_
  constructor
  · intro hlength
    exact ⟨by omega, by omega⟩
  · rintro ⟨hlength, haligned⟩
    omega

/-- The operands of a table switch are read as the layout has them. -/
theorem reads_decodeTableSwitch (opcode : UInt8) :
    Reads decodeTableSwitch fun position bytes operands ↦
      OperandBytes position opcode .tableSwitch bytes ⟨opcode, false, operands⟩ := by
  refine (reads_skipPadding.bind fun _ ↦ Reads.i32.bind fun default ↦ Reads.i32.bind fun low ↦
    Reads.i32.bind fun high ↦ Reads.guard _ fun _ ↦ (Reads.i32.times _).bind fun offsets ↦
      Reads.pure _).congr fun position bytes operands ↦ ?_
  constructor
  · rintro ⟨_, padding, _, rfl, hpadding, default, _, _, rfl, rfl, low, _, _, rfl, rfl,
      high, _, _, rfl, rfl, hbounds, offsets, table, _, rfl, ⟨hlength, hrows⟩, rfl, rfl⟩
    have htable : table = offsets.flatMap signed32 := (rows_eq_iff signed32 _ _).mp hrows
    rw [Int32.lt_iff_toInt_lt, Int.not_lt] at hbounds
    have hbytes : OperandBytes position opcode .tableSwitch _
        ⟨opcode, false, .tableSwitch default low high offsets⟩ :=
      .tableSwitch hpadding hbounds (by omega)
    simpa [htable, List.append_assoc] using hbytes
  · intro hbytes
    cases hbytes with
    | @tableSwitch padding default low high offsets hpadding hbounds hlength =>
      refine ⟨(), padding, signed32 default ++ (signed32 low ++ (signed32 high ++
        (offsets.flatMap signed32 ++ []))), by simp, hpadding, default, _, _, rfl, rfl, low, _, _,
        rfl, rfl, high, _, _, rfl, rfl, ?_, offsets, _, _, rfl, ⟨?_, ?_⟩, rfl, rfl⟩
      · rwa [Int32.lt_iff_toInt_lt, Int.not_lt]
      · omega
      · exact (rows_eq_iff signed32 _ _).mpr rfl

/-- A key and a branch offset are read one behind the other. -/
theorem reads_switchPair :
    Reads (do
      let key ← Decoder.i32
      let target ← Decoder.i32
      return (key, target) : Decoder InstructionCause (Int32 × Int32))
      fun _ bytes pair ↦ bytes = switchPair pair := by
  refine (Reads.i32.bind fun key ↦ Reads.i32.bind fun target ↦ Reads.pure (key, target)).congr
    fun position bytes pair ↦ ?_
  constructor
  · rintro ⟨key, _, _, rfl, rfl, target, _, _, rfl, rfl, rfl, rfl⟩
    rw [List.append_nil, switchPair]
  · rintro rfl
    exact ⟨pair.1, _, _, rfl, rfl, pair.2, _, [], (List.append_nil _).symm, rfl, rfl, rfl⟩

/-- The operands of a lookup switch are read as the layout has them. -/
theorem reads_decodeLookupSwitch (opcode : UInt8) :
    Reads decodeLookupSwitch fun position bytes operands ↦
      OperandBytes position opcode .lookupSwitch bytes ⟨opcode, false, operands⟩ := by
  refine (reads_skipPadding.bind fun _ ↦ Reads.i32.bind fun default ↦ Reads.i32.bind fun count ↦
    Reads.guard _ fun _ ↦ (reads_switchPair.times _).bind fun pairs ↦ Reads.pure _).congr
      fun position bytes operands ↦ ?_
  constructor
  · rintro ⟨_, padding, _, rfl, hpadding, default, _, _, rfl, rfl, count, _, _, rfl, rfl, hcount,
      pairs, table, _, rfl, ⟨hlength, hrows⟩, rfl, rfl⟩
    have htable : table = pairs.flatMap switchPair := (rows_eq_iff switchPair _ _).mp hrows
    rw [Int32.lt_iff_toInt_lt, Int32.toInt_zero] at hcount
    have hcount' : (pairs.length : Int) = count.toInt := by omega
    have hbytes : OperandBytes position opcode .lookupSwitch _
        ⟨opcode, false, .lookupSwitch default pairs⟩ :=
      .lookupSwitch hpadding hcount'
    simpa [htable, List.append_assoc] using hbytes
  · intro hbytes
    cases hbytes with
    | @lookupSwitch padding default count pairs hpadding hlength =>
      refine ⟨(), padding, signed32 default ++ (signed32 count ++ (pairs.flatMap switchPair ++ [])),
        by simp, hpadding, default, _, _, rfl, rfl, count, _, _, rfl, rfl, ?_, pairs, _, _, rfl,
        ⟨?_, ?_⟩, rfl, rfl⟩
      · rw [Int32.lt_iff_toInt_lt, Int32.toInt_zero]
        omega
      · omega
      · exact (rows_eq_iff switchPair _ _).mpr rfl

/-- An opcode behind `wide` and its operands are read as the layout has them. -/
theorem reads_decodeWide (opcode : UInt8) :
    Reads decodeWide fun position bytes form ↦ OperandBytes position opcode .wide bytes form := by
  refine (Reads.u8.bind fun target ↦ Reads.ite (fun _ ↦ Reads.u16.bind fun index ↦
    Reads.ite (fun _ ↦ Reads.i16.bind_pure _) fun _ ↦ Reads.pure _) fun _ ↦ Reads.fail _).congr
      fun position bytes form ↦ ?_
  constructor
  · rintro ⟨target, _, _, rfl, rfl, ⟨hwidened, index, _, _, rfl, rfl, hoperands⟩ | ⟨-, hnone⟩⟩
    · rw [Opcode.isWidenable_iff] at hwidened
      rcases hoperands with ⟨hiinc, delta, rfl, rfl⟩ | ⟨hiinc, rfl, rfl⟩
      · have hincrement := (Opcode.stretchLayout?_eq_increment_iff target).mpr hiinc
        exact .wideIncrement hincrement index delta
      · have hslot := hwidened.resolve_right fun hincrement ↦
          hiinc ((Opcode.stretchLayout?_eq_increment_iff target).mp hincrement)
        rw [List.append_nil]
        exact .wideSlot hslot index
    · exact hnone.elim
  · intro hbytes
    cases hbytes with
    | @wideSlot target hslot index =>
      have hiinc : target ≠ Opcode.iinc := by
        intro hiinc
        rw [(Opcode.stretchLayout?_eq_increment_iff target).mpr hiinc] at hslot
        simp at hslot
      exact ⟨target, [target], word16 index, rfl, rfl,
        .inl ⟨(Opcode.isWidenable_iff target).mpr (.inl hslot), index, _, [],
          (List.append_nil _).symm, rfl, .inr ⟨hiinc, rfl, rfl⟩⟩⟩
    | @wideIncrement target hincrement index delta =>
      have hiinc := (Opcode.stretchLayout?_eq_increment_iff target).mp hincrement
      exact ⟨target, [target], word16 index ++ signed16 delta, rfl, rfl,
        .inl ⟨(Opcode.isWidenable_iff target).mpr (.inr hincrement), index, _, _, rfl, rfl,
          .inl ⟨hiinc, delta, rfl, rfl⟩⟩⟩

/-- What stands behind an opcode is read as its layout has it. -/
theorem reads_decodeBehind (opcode : UInt8) (layout : Layout) :
    Reads (decodeBehind opcode layout) fun position bytes form ↦
      OperandBytes position opcode layout bytes form := by
  cases layout with
  | none =>
    refine (Reads.pure _).congr fun position bytes form ↦ ⟨?_, ?_⟩
    · rintro ⟨rfl, rfl⟩
      exact .none
    · rintro ⟨⟩
      exact ⟨rfl, rfl⟩
  | signedByte =>
    refine (Reads.i8.bind_pure _).congr fun position bytes form ↦ ⟨?_, ?_⟩
    · rintro ⟨value, rfl, rfl⟩
      exact .signedByte value
    · rintro ⟨⟩
      exact ⟨_, rfl, rfl⟩
  | signedShort =>
    refine (Reads.i16.bind_pure _).congr fun position bytes form ↦ ⟨?_, ?_⟩
    · rintro ⟨value, rfl, rfl⟩
      exact .signedShort value
    · rintro ⟨⟩
      exact ⟨_, rfl, rfl⟩
  | constant8 =>
    refine (Reads.u8.bind_pure _).congr fun position bytes form ↦ ⟨?_, ?_⟩
    · rintro ⟨index, rfl, rfl⟩
      exact .constant8 index
    · rintro ⟨⟩
      exact ⟨_, rfl, rfl⟩
  | constant16 =>
    refine (Reads.u16.bind_pure _).congr fun position bytes form ↦ ⟨?_, ?_⟩
    · rintro ⟨index, rfl, rfl⟩
      exact .constant16 index
    · rintro ⟨⟩
      exact ⟨_, rfl, rfl⟩
  | slot =>
    refine (Reads.u8.bind_pure _).congr fun position bytes form ↦ ⟨?_, ?_⟩
    · rintro ⟨index, rfl, rfl⟩
      exact .slot index
    · rintro ⟨⟩
      exact ⟨_, rfl, rfl⟩
  | increment =>
    refine (Reads.u8.bind fun index ↦ Reads.i8.bind_pure _).congr
      fun position bytes form ↦ ⟨?_, ?_⟩
    · rintro ⟨index, _, _, rfl, rfl, delta, rfl, rfl⟩
      exact .increment index delta
    · rintro ⟨⟩
      exact ⟨_, [_], [_], rfl, rfl, _, rfl, rfl⟩
  | branch16 =>
    refine (Reads.i16.bind_pure _).congr fun position bytes form ↦ ⟨?_, ?_⟩
    · rintro ⟨offset, rfl, rfl⟩
      exact .branch16 offset
    · rintro ⟨⟩
      exact ⟨_, rfl, rfl⟩
  | branch32 =>
    refine (Reads.i32.bind_pure _).congr fun position bytes form ↦ ⟨?_, ?_⟩
    · rintro ⟨offset, rfl, rfl⟩
      exact .branch32 offset
    · rintro ⟨⟩
      exact ⟨_, rfl, rfl⟩
  | arrayType =>
    refine (Reads.u8.bind_pure _).congr fun position bytes form ↦ ⟨?_, ?_⟩
    · rintro ⟨code, rfl, rfl⟩
      exact .arrayType code
    · rintro ⟨⟩
      exact ⟨_, rfl, rfl⟩
  | invokeInterface =>
    refine (Reads.u16.bind fun index ↦ Reads.u8.bind fun count ↦ (Reads.skip 1).bind_pure _).congr
      fun position bytes form ↦ ⟨?_, ?_⟩
    · rintro ⟨index, _, _, rfl, rfl, count, _, _, rfl, rfl, _, hignored, rfl⟩
      obtain ⟨ignored, rfl⟩ := List.length_eq_one_iff.mp hignored
      exact .invokeInterface index count ignored
    · rintro ⟨⟩
      exact ⟨_, _, _, rfl, rfl, _, [_], [_], rfl, rfl, (), rfl, rfl⟩
  | invokeDynamic =>
    refine (Reads.u16.bind fun index ↦ (Reads.skip 2).bind_pure _).congr
      fun position bytes form ↦ ⟨?_, ?_⟩
    · rintro ⟨index, _, _, rfl, rfl, _, hignored, rfl⟩
      obtain ⟨ignored, ignored', rfl⟩ := List.length_eq_two.mp hignored
      exact .invokeDynamic index ignored ignored'
    · rintro ⟨⟩
      exact ⟨_, _, _, rfl, rfl, (), rfl, rfl⟩
  | multiNewArray =>
    refine (Reads.u16.bind fun index ↦ Reads.u8.bind_pure _).congr
      fun position bytes form ↦ ⟨?_, ?_⟩
    · rintro ⟨index, _, _, rfl, rfl, dimensions, rfl, rfl⟩
      exact .multiNewArray index dimensions
    · rintro ⟨⟩
      exact ⟨_, _, _, rfl, rfl, _, rfl, rfl⟩
  | tableSwitch =>
    refine ((reads_decodeTableSwitch opcode).bind_pure _).congr
      fun position bytes form ↦ ⟨?_, ?_⟩
    · rintro ⟨operands, hbytes, rfl⟩
      exact hbytes
    · intro hbytes
      cases hbytes with
      | tableSwitch padded low_le_high length_eq =>
        exact ⟨_, .tableSwitch padded low_le_high length_eq, rfl⟩
  | lookupSwitch =>
    refine ((reads_decodeLookupSwitch opcode).bind_pure _).congr
      fun position bytes form ↦ ⟨?_, ?_⟩
    · rintro ⟨operands, hbytes, rfl⟩
      exact hbytes
    · intro hbytes
      cases hbytes with
      | lookupSwitch padded length_eq => exact ⟨_, .lookupSwitch padded length_eq, rfl⟩
  | wide => exact reads_decodeWide opcode

/-- An opcode and what stands behind it are read as the bytes of an instruction. -/
theorem reads_decodeForm : Reads decodeForm InstructionBytes := by
  refine (Reads.u8.bind (?behind : ∀ opcode, Reads _ fun position bytes form ↦
    ∃ layout, Opcode.stretchLayout? opcode = some layout ∧
      OperandBytes position opcode layout bytes form)).congr ?bytes
  case behind =>
    intro opcode
    rw [Opcode.layout?_eq_stretchLayout?]
    generalize Opcode.stretchLayout? opcode = known
    cases known with
    | none => exact (Reads.fail _).congr fun position bytes form ↦ by simp
    | some layout => exact (reads_decodeBehind opcode layout).congr fun _ _ _ ↦ by simp
  case bytes =>
    intro position bytes form
    constructor
    · rintro ⟨opcode, _, operands, rfl, rfl, layout, hknown, hbehind⟩
      exact .intro hknown hbehind
    · rintro ⟨hknown, hbehind⟩
      exact ⟨_, [_], _, rfl, rfl, _, hknown, hbehind⟩

/-- An instruction is read with the offset of its opcode and the number of its bytes. -/
theorem reads_decode :
    Reads decode fun position bytes instruction ↦
      ∃ form, InstructionBytes position bytes form ∧
        instruction = ⟨form, position, bytes.length⟩ := by
  refine (Reads.position_bind fun start ↦ (reads_decodeForm.mapFault _).bind fun form ↦
    Reads.position_bind fun stop ↦ Reads.pure _).congr fun position bytes instruction ↦ ?_
  constructor
  · rintro ⟨form, front, _, rfl, hform, rfl, rfl⟩
    rw [List.append_nil, Nat.add_sub_cancel_left]
    exact ⟨form, hform, rfl⟩
  · rintro ⟨form, hform, rfl⟩
    exact ⟨form, bytes, [], (List.append_nil bytes).symm, hform, rfl, by
      rw [Nat.add_sub_cancel_left]⟩

/-! ### All instructions -/

/-- Nothing is left to decode at the end of the code. -/
theorem itemsOnto_of_isEmpty {cursor : Cursor} (h : cursor.isEmpty = true)
    (items : List (Except InstructionFault Instruction)) :
    itemsOnto items cursor = items.reverse := by
  rw [itemsOnto, if_pos h]

/-- A decoder of one instruction that succeeds has something to decode. -/
theorem isEmpty_of_decode {cursor moved : Cursor} {instruction : Instruction}
    (h : decode cursor = (.ok instruction, moved)) : cursor.isEmpty = false := by
  have hshorter := consumes_decode cursor instruction moved h
  rw [Cursor.isEmpty, List.isEmpty_eq_false_iff, ← List.length_pos_iff]
  omega

/-- An instruction that decodes is added, and decoding goes on behind it. -/
theorem itemsOnto_of_ok {cursor moved : Cursor} {instruction : Instruction}
    (h : decode cursor = (.ok instruction, moved))
    (items : List (Except InstructionFault Instruction)) :
    itemsOnto items cursor = itemsOnto (.ok instruction :: items) moved := by
  rw [itemsOnto, if_neg (by simp [isEmpty_of_decode h])]
  split
  · rename_i found between hfound
    obtain ⟨rfl, rfl⟩ : found = instruction ∧ between = moved := by simpa [h, eq_comm] using hfound
    rfl
  · rename_i fault between hfault
    simp [h] at hfault

/-- A fault is added and ends the items. -/
theorem itemsOnto_of_error {cursor moved : Cursor} {fault : InstructionFault}
    (hempty : cursor.isEmpty = false) (h : decode cursor = (.error fault, moved))
    (items : List (Except InstructionFault Instruction)) :
    itemsOnto items cursor = items.reverse ++ [.error fault] := by
  rw [itemsOnto, if_neg (by simp [hempty])]
  split
  · rename_i found between hfound
    simp [h] at hfound
  · rename_i found between hfound
    obtain ⟨rfl, rfl⟩ : found = fault ∧ between = moved := by simpa [h, eq_comm] using hfound
    exact List.reverse_cons

/-- Induction along the code: at its end, at an instruction with the code behind it, and at what
does not decode. -/
@[elab_as_elim]
theorem decode_induction {motive : Cursor → Prop} (cursor : Cursor)
    (atEnd : ∀ cursor, cursor.isEmpty = true → motive cursor)
    (step : ∀ cursor instruction moved, decode cursor = (.ok instruction, moved) → motive moved →
      motive cursor)
    (stuck : ∀ cursor fault moved, cursor.isEmpty = false → decode cursor = (.error fault, moved) →
      motive cursor) :
    motive cursor := by
  induction hlength : cursor.rest.length using Nat.strongRecOn generalizing cursor with
  | ind length ih =>
    cases hempty : cursor.isEmpty with
    | true => exact atEnd cursor hempty
    | false =>
      rcases hdecode : decode cursor with ⟨fault | instruction, moved⟩
      · exact stuck cursor fault moved hempty hdecode
      · have hshorter := consumes_decode cursor instruction moved hdecode
        exact step cursor instruction moved hdecode (ih _ (hlength ▸ hshorter) moved rfl)

/-- Items already decoded stay in front of those to come. -/
theorem itemsOnto_eq (items : List (Except InstructionFault Instruction)) (cursor : Cursor) :
    itemsOnto items cursor = items.reverse ++ itemsFrom cursor := by
  induction cursor using decode_induction generalizing items with
  | atEnd cursor hempty => rw [itemsFrom, itemsOnto_of_isEmpty hempty, itemsOnto_of_isEmpty hempty,
      List.reverse_nil, List.append_nil]
  | step cursor instruction moved hdecode ih =>
    rw [itemsFrom, itemsOnto_of_ok hdecode, itemsOnto_of_ok hdecode, ih, ih [_], List.reverse_cons,
      List.append_assoc]
    rfl
  | stuck cursor fault moved hempty hdecode =>
    rw [itemsFrom, itemsOnto_of_error hempty hdecode, itemsOnto_of_error hempty hdecode]
    rfl

theorem itemsFrom_of_isEmpty {cursor : Cursor} (h : cursor.isEmpty = true) :
    itemsFrom cursor = [] :=
  itemsOnto_of_isEmpty h []

theorem itemsFrom_of_ok {cursor moved : Cursor} {instruction : Instruction}
    (h : decode cursor = (.ok instruction, moved)) :
    itemsFrom cursor = .ok instruction :: itemsFrom moved := by
  rw [itemsFrom, itemsOnto_of_ok h, itemsOnto_eq]
  rfl

theorem itemsFrom_of_error {cursor moved : Cursor} {fault : InstructionFault}
    (hempty : cursor.isEmpty = false) (h : decode cursor = (.error fault, moved)) :
    itemsFrom cursor = [.error fault] :=
  itemsOnto_of_error hempty h []

/-- Results that are values throughout are the list of those values. -/
theorem mapM_id_eq_ok_iff {ε α : Type} (results : List (Except ε α)) (values : List α) :
    results.mapM id = .ok values ↔ results = values.map .ok := by
  induction results generalizing values with
  | nil => cases values <;> simp [pure, Except.pure]
  | cons result results ih =>
    rw [List.mapM_cons]
    cases result with
    | error fault => cases values <;> simp [bind, Except.bind]
    | ok value =>
      cases hrest : results.mapM id with
      | error fault =>
        have hnone : ∀ rest : List α, results ≠ rest.map .ok := fun rest hresults ↦ by
          rw [(ih rest).mpr hresults] at hrest
          simp at hrest
        cases values <;> simp [bind, Except.bind, hnone]
      | ok rest =>
        have hresults : results = rest.map Except.ok := (ih rest).mp hrest
        have hinjective : Function.Injective (Except.ok : α → Except ε α) := fun _ _ ↦ Except.ok.inj
        cases values with
        | nil => simp [bind, Except.bind, pure, Except.pure]
        | cons first others =>
          simp [bind, Except.bind, pure, Except.pure, hresults, List.map_inj_right hinjective]

/-- Results that are not values throughout are values up to the first fault. -/
theorem exists_of_mapM_id_eq_error {ε α : Type} {results : List (Except ε α)} {fault : ε}
    (h : results.mapM id = .error fault) :
    ∃ (values : List α) (later : List (Except ε α)),
      results = values.map .ok ++ .error fault :: later := by
  induction results with
  | nil => simp [pure, Except.pure] at h
  | cons result results ih =>
    rw [List.mapM_cons] at h
    cases result with
    | error found =>
      obtain rfl : found = fault := by simpa [bind, Except.bind] using h
      exact ⟨[], results, rfl⟩
    | ok value =>
      cases hrest : results.mapM id with
      | ok rest => simp [hrest, bind, Except.bind, pure, Except.pure] at h
      | error found =>
        obtain rfl : found = fault := by simpa [hrest, bind, Except.bind] using h
        obtain ⟨values, later, rfl⟩ := ih hrest
        exact ⟨value :: values, later, rfl⟩

/-- No items come only from the end of the code. -/
theorem itemsFrom_eq_nil_iff (cursor : Cursor) : itemsFrom cursor = [] ↔ cursor.rest = [] := by
  induction cursor using decode_induction with
  | atEnd cursor hempty => simp [itemsFrom_of_isEmpty hempty, List.isEmpty_iff.mp hempty]
  | step cursor instruction moved hdecode ih =>
    have hrest := List.isEmpty_eq_false_iff.mp (isEmpty_of_decode hdecode)
    simp [itemsFrom_of_ok hdecode, hrest]
  | stuck cursor fault moved hempty hdecode =>
    simp [itemsFrom_of_error hempty hdecode, List.isEmpty_eq_false_iff.mp hempty]

/-- The first item is an instruction where one decodes, and the others come from behind it. -/
theorem itemsFrom_eq_ok_cons_iff (cursor : Cursor) (instruction : Instruction)
    (items : List (Except InstructionFault Instruction)) :
    itemsFrom cursor = .ok instruction :: items ↔
      ∃ moved, decode cursor = (.ok instruction, moved) ∧ itemsFrom moved = items := by
  induction cursor using decode_induction with
  | atEnd cursor hempty =>
    simp only [itemsFrom_of_isEmpty hempty, List.nil_eq, reduceCtorEq, false_iff]
    rintro ⟨moved, hdecode, -⟩
    simp [isEmpty_of_decode hdecode] at hempty
  | step cursor found moved hdecode ih => simp [itemsFrom_of_ok hdecode, hdecode]
  | stuck cursor fault moved hempty hdecode => simp [itemsFrom_of_error hempty hdecode, hdecode]

/-- A first instruction of assembled code has its bytes in front of the others'. -/
theorem assembly_cons_iff (offset : Nat) (code : List UInt8) (instruction : Instruction)
    (instructions : List Instruction) :
    Assembly offset code (instruction :: instructions) ↔
      ∃ bytes rest, code = bytes ++ rest ∧
        (∃ form, InstructionBytes offset bytes form ∧
          instruction = ⟨form, offset, bytes.length⟩) ∧
        Assembly (offset + bytes.length) rest instructions := by
  constructor
  · rintro ⟨⟩
    rename_i bytes rest form hhead htail
    exact ⟨bytes, rest, rfl, ⟨form, hhead, rfl⟩, htail⟩
  · rintro ⟨bytes, rest, rfl, ⟨form, hhead, rfl⟩, htail⟩
    exact .cons hhead htail

/-- The items are instructions throughout exactly where the code is their assembly. -/
theorem itemsFrom_eq_map_ok_iff (cursor : Cursor) (instructions : List Instruction) :
    itemsFrom cursor = instructions.map .ok ↔
      Assembly cursor.position cursor.rest instructions := by
  induction instructions generalizing cursor with
  | nil =>
    rw [List.map_nil, itemsFrom_eq_nil_iff]
    constructor
    · intro hrest
      rw [hrest]
      exact .nil _
    · intro hassembly
      generalize cursor.rest = rest at hassembly
      cases hassembly
      rfl
  | cons instruction instructions ih =>
    rw [List.map_cons, itemsFrom_eq_ok_cons_iff, assembly_cons_iff]
    constructor
    · rintro ⟨moved, hdecode, hitems⟩
      obtain ⟨bytes, hbytes, hrest, hposition⟩ := (reads_decode _ _ _).mp hdecode
      have htail := (ih moved).mp hitems
      rw [hposition] at htail
      exact ⟨bytes, moved.rest, hrest, hbytes, htail⟩
    · rintro ⟨bytes, rest, hrest, hbytes, htail⟩
      refine ⟨⟨rest, cursor.position + bytes.length⟩, ?_, (ih _).mpr htail⟩
      exact (reads_decode _ _ _).mpr ⟨bytes, hbytes, hrest, rfl⟩

/-- A code decodes to a list of instructions exactly if it is the assembly of that list. -/
theorem decodeAll_eq_ok_iff_assembly (code : List UInt8) (instructions : List Instruction) :
    decodeAll code = .ok instructions ↔ Assembly 0 code instructions := by
  rw [decodeAll, mapM_id_eq_ok_iff]
  exact itemsFrom_eq_map_ok_iff (Cursor.ofBytes code) instructions

end Instruction

end MonitorAudit
