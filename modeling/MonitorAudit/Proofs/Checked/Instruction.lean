import Mathlib.Algebra.Group.Int.Defs
import MonitorAudit.Proofs.Bytecode.Assembly
import MonitorAudit.Proofs.Checked.Reader

/-!
# Instructions with machine arithmetic

Each instruction is read by a reader of its own over the whole code, which passes over the bytes in
front. Offsets and lengths are kept as numbers of 32 bits. If the code has fewer than `2 ^ 32`
bytes, no operation fails: the items of the code are those of `Instruction.items`
(`Instruction.checkedItems?_eq`), and the offset behind each of them is a number of 32 bits
(`Instruction.checkedNextOffset?_eq`).

The rows of a switch are counted before they are read, and a count that the rest of the code cannot
hold is refused at once. The decoder reads the rows that are there and then runs out of bytes, which
is the same fault (`Instruction.IsSized.times`).
-/

set_option autoImplicit false

namespace MonitorAudit

open Checked (ofValue AgreesUpTo Agrees)

/-- The number, if it is one of 64 bits with a sign. -/
def signed64? (number : Int) : Option Int :=
  if -2 ^ 63 ≤ number ∧ number < 2 ^ 63 then some number else none

/-- The product of two unsigned numbers of 64 bits, or the largest one if it is none. -/
def saturatingMul64 (first second : Nat) : Nat := min (first * second) (2 ^ 64 - 1)

instance : CountsMissing InstructionCause := ⟨fun _ ↦ 0⟩

instance : LawfulMissing InstructionCause := ⟨fun _ ↦ Nat.zero_le _⟩

namespace Instruction

/-! ### One instruction -/

/-- Passes over the bytes up to the next multiple of four. -/
def checkedSkipPadding : Checked InstructionCause Unit := do
  let position ← Checked.position
  let distance ← ofValue (sub? 4 (position % 4))
  Checked.skip (distance % 4)

/-- Reads so many rows of `size` bytes, if there are as many bytes. -/
def checkedRows {α : Type} (size : Nat) (row : Checked InstructionCause α) (count : Nat) :
    Checked InstructionCause (List α) := do
  let left ← Checked.remaining
  if left < saturatingMul64 count size then Checked.fail .truncated
  else Checked.times row count

/-- Reads a table of branch offsets, one for each number from the low to the high bound. -/
def checkedTableSwitch : Checked InstructionCause Operands := do
  checkedSkipPadding
  let default ← Checked.i32
  let low ← Checked.i32
  let high ← Checked.i32
  if high < low then Checked.fail .malformedSwitch
  else do
    let difference ← ofValue (signed64? (high.toInt - low.toInt))
    let count ← ofValue (signed64? (difference + 1))
    let offsets ← checkedRows 4 Checked.i32 count.toNat
    return .tableSwitch default low high offsets

/-- Reads a table of keys and branch offsets, as many as its count says. -/
def checkedLookupSwitch : Checked InstructionCause Operands := do
  checkedSkipPadding
  let default ← Checked.i32
  let count ← Checked.i32
  if count < 0 then Checked.fail .malformedSwitch
  else do
    let row : Checked InstructionCause (Int32 × Int32) := do
      let key ← Checked.i32
      let target ← Checked.i32
      return (key, target)
    let pairs ← checkedRows 8 row count.toInt.toNat
    return .lookupSwitch default pairs

/-- Reads an opcode behind `wide` and its widened operands. -/
def checkedWide : Checked InstructionCause InstructionForm := do
  let opcode ← Checked.u8
  if Opcode.isWidenable opcode then do
    let index ← Checked.u16
    if opcode = Opcode.iinc then return ⟨opcode, true, .increment index (← Checked.i16)⟩
    else return ⟨opcode, true, .slot index⟩
  else Checked.fail (.badWideTarget opcode)

/-- Reads what stands behind an opcode of the layout. -/
def checkedBehind (opcode : UInt8) : Layout → Checked InstructionCause InstructionForm
  | .none => return ⟨opcode, false, .none⟩
  | .signedByte => do return ⟨opcode, false, .immediate (← Checked.i8).toInt32⟩
  | .signedShort => do return ⟨opcode, false, .immediate (← Checked.i16).toInt32⟩
  | .constant8 => do return ⟨opcode, false, .constant (← Checked.u8).toUInt16⟩
  | .constant16 => do return ⟨opcode, false, .constant (← Checked.u16)⟩
  | .slot => do return ⟨opcode, false, .slot (← Checked.u8).toUInt16⟩
  | .increment => do
    let index ← Checked.u8
    let delta ← Checked.i8
    return ⟨opcode, false, .increment index.toUInt16 delta.toInt16⟩
  | .branch16 => do return ⟨opcode, false, .branch (← Checked.i16).toInt32⟩
  | .branch32 => do return ⟨opcode, false, .branch (← Checked.i32)⟩
  | .arrayType => do return ⟨opcode, false, .arrayType (← Checked.u8)⟩
  | .invokeInterface => do
    let index ← Checked.u16
    let count ← Checked.u8
    Checked.skip 1
    return ⟨opcode, false, .invokeInterface index count⟩
  | .invokeDynamic => do
    let index ← Checked.u16
    Checked.skip 2
    return ⟨opcode, false, .invokeDynamic index⟩
  | .multiNewArray => do
    let index ← Checked.u16
    let dimensions ← Checked.u8
    return ⟨opcode, false, .multiNewArray index dimensions⟩
  | .tableSwitch => do return ⟨opcode, false, ← checkedTableSwitch⟩
  | .lookupSwitch => do return ⟨opcode, false, ← checkedLookupSwitch⟩
  | .wide => checkedWide

/-- Reads an opcode and its operands. -/
def checkedForm : Checked InstructionCause InstructionForm := do
  let opcode ← Checked.u8
  match Opcode.layout? opcode with
  | some layout => checkedBehind opcode layout
  | none => Checked.fail (.unknownOpcode opcode)

/-- The instruction at an offset of the code. -/
def checkedAt? (code : List UInt8) (offset : Nat) :
    Option (Except InstructionFault Instruction) := do
  let start ← narrow? 32 offset
  let reading : Checked InstructionCause InstructionForm := do
    Checked.skip offset
    checkedForm
  match ← reading (.ofBytes code) with
  | (.error cause, _) => return .error ⟨start, cause⟩
  | (.ok form, later) =>
    let stop ← later.position?
    let length ← narrow? 32 (← sub? stop offset)
    return .ok { form with offset := start, length }

/-! ### All instructions -/

/-- The items of the code from an offset on, in so many rounds. -/
def checkedItemsFrom? (code : List UInt8) :
    Nat → Nat → Option (List (Except InstructionFault Instruction))
  | 0, _ => none
  | rounds + 1, offset =>
    if code.length ≤ offset then some []
    else do
      match ← checkedAt? code offset with
      | .error fault => return [.error fault]
      | .ok instruction =>
        let next ← add? 64 offset instruction.length
        let later ← checkedItemsFrom? code rounds next
        return .ok instruction :: later

/-- The instructions of a method's code, ended by the first fault if there is one. -/
def checkedItems? (code : List UInt8) : Option (List (Except InstructionFault Instruction)) :=
  checkedItemsFrom? code (code.length + 1) 0

/-- All instructions of a method's code, or the first fault. -/
def checkedDecodeAll? (code : List UInt8) : Option (Except InstructionFault (List Instruction)) :=
  do return (← checkedItems? code).mapM id

/-- The offset of the byte behind the instruction. -/
def checkedNextOffset? (instruction : Instruction) : Option Nat :=
  add? 32 instruction.offset instruction.length

/-! ### Agreement -/

/-- A decoder takes `size` bytes if they are there, and otherwise runs out of bytes. -/
structure IsSized {α : Type} (decoder : Decoder InstructionCause α) (size : Nat) : Prop where
  of_le : ∀ cursor : Cursor, size ≤ cursor.remaining →
    ∃ value, decoder cursor = (.ok value, cursor.advance size)
  of_lt : ∀ cursor : Cursor, cursor.remaining < size →
    ∃ left, decoder cursor = (.error .truncated, left)

namespace IsSized

variable {α β : Type}

theorem pure (value : α) : IsSized (Pure.pure value : Decoder InstructionCause α) 0 where
  of_le cursor _ := ⟨value, by rw [Cursor.advance_zero]; rfl⟩
  of_lt _ h := absurd h (Nat.not_lt_zero _)

theorem take (count : Nat) :
    IsSized (Decoder.take count : Decoder InstructionCause (List UInt8)) count where
  of_le cursor h := ⟨_, by rw [Decoder.take, Cursor.splitAt?_of_le h]⟩
  of_lt cursor h := ⟨cursor, by rw [Decoder.take, Cursor.splitAt?_of_lt h]; rfl⟩

theorem bind {first : Decoder InstructionCause α} {next : α → Decoder InstructionCause β}
    {size more : Nat} (hfirst : IsSized first size) (hnext : ∀ value, IsSized (next value) more) :
    IsSized (first >>= next) (size + more) where
  of_le cursor h := by
    obtain ⟨value, hvalue⟩ := hfirst.of_le cursor (by omega)
    obtain ⟨last, hlast⟩ := (hnext value).of_le (cursor.advance size) (by
      rw [Cursor.remaining_advance]
      omega)
    exact ⟨last, by rw [Decoder.bind_apply, hvalue]; simp only; rw [hlast, Cursor.advance_advance]⟩
  of_lt cursor h := by
    rw [Decoder.bind_apply]
    by_cases hthere : size ≤ cursor.remaining
    · obtain ⟨value, hvalue⟩ := hfirst.of_le cursor hthere
      rw [hvalue]
      exact (hnext value).of_lt _ (by
        rw [Cursor.remaining_advance]
        omega)
    · obtain ⟨left, hfault⟩ := hfirst.of_lt cursor (by omega)
      exact ⟨left, by rw [hfault]⟩

theorem i32 : IsSized (Decoder.i32 : Decoder InstructionCause Int32) 4 :=
  ((take 4).bind fun _ ↦ pure _).bind fun _ ↦ pure _

theorem times {row : Decoder InstructionCause α} {size : Nat} (h : IsSized row size) (count : Nat) :
    IsSized (Decoder.times count row) (count * size) := by
  induction count with
  | zero =>
    rw [Nat.zero_mul]
    exact pure []
  | succ count ih =>
    rw [Decoder.times_succ, Nat.succ_mul, Nat.add_comm]
    exact h.bind fun _ ↦ ih.bind fun _ ↦ pure _

end IsSized

theorem agrees_checkedSkipPadding : Agrees checkedSkipPadding skipPadding := by
  refine AgreesUpTo.position.bind fun position ↦ ?_
  exact .ofValue_bind (sub?_of_le (by omega)) (.skip (by omega))

/-- Rows that the rest of the code cannot hold are refused as the decoder refuses them. -/
theorem agrees_checkedRows {α : Type} {size : Nat} {row : Checked InstructionCause α}
    {row' : Decoder InstructionCause α} (h : Agrees row row') (hsize : IsSized row' size)
    (count : Nat) : Agrees (checkedRows size row count) (Decoder.times count row') := by
  refine .remaining_bind fun reader hreader ↦ ?_
  have hremaining := reader.remaining_cursor
  have hstop := hreader.stop_lt
  by_cases hshort : reader.cursor.remaining < saturatingMul64 count size
  · rw [if_pos hshort]
    rw [saturatingMul64] at hshort
    obtain ⟨left, hfault⟩ := (hsize.times count).of_lt reader.cursor (by omega)
    rw [hfault]
    exact .error (Nat.two_pow_pos 32)
  · rw [if_neg hshort]
    exact h.times count reader hreader

theorem agrees_checkedTableSwitch : Agrees checkedTableSwitch decodeTableSwitch := by
  refine agrees_checkedSkipPadding.bind fun _ ↦ AgreesUpTo.i32.bind fun default ↦
    AgreesUpTo.i32.bind fun low ↦ AgreesUpTo.i32.bind fun high ↦
      .ite (fun _ ↦ .refuse rfl) fun _ ↦ ?_
  have hlow := low.le_toInt
  have hlow' := low.toInt_lt
  have hhigh := high.le_toInt
  have hhigh' := high.toInt_lt
  have hdifference : signed64? (high.toInt - low.toInt) = some (high.toInt - low.toInt) :=
    if_pos (by omega)
  have hcount : signed64? (high.toInt - low.toInt + 1) = some (high.toInt - low.toInt + 1) :=
    if_pos (by omega)
  exact .ofValue_bind hdifference (.ofValue_bind hcount
    ((agrees_checkedRows .i32 .i32 _).map _))

theorem agrees_checkedLookupSwitch : Agrees checkedLookupSwitch decodeLookupSwitch := by
  refine agrees_checkedSkipPadding.bind fun _ ↦ AgreesUpTo.i32.bind fun default ↦
    AgreesUpTo.i32.bind fun count ↦ .ite (fun _ ↦ .refuse rfl) fun _ ↦ ?_
  exact (agrees_checkedRows (AgreesUpTo.i32.bind fun _ ↦ AgreesUpTo.i32.map _)
    (IsSized.i32.bind fun _ ↦ IsSized.i32.bind fun _ ↦ .pure _) _).map _

theorem agrees_checkedWide : Agrees checkedWide decodeWide := by
  refine AgreesUpTo.u8.bind fun opcode ↦ .ite (fun _ ↦ ?_) fun _ ↦ .refuse rfl
  exact AgreesUpTo.u16.bind fun index ↦
    .ite (fun _ ↦ AgreesUpTo.i16.map _) fun _ ↦ .pure _

theorem agrees_checkedBehind (opcode : UInt8) (layout : Layout) :
    Agrees (checkedBehind opcode layout) (decodeBehind opcode layout) := by
  cases layout with
  | none => exact .pure _
  | signedByte => exact AgreesUpTo.i8.map _
  | signedShort | branch16 => exact AgreesUpTo.i16.map _
  | constant8 | slot | arrayType => exact AgreesUpTo.u8.map _
  | constant16 => exact AgreesUpTo.u16.map _
  | increment => exact AgreesUpTo.u8.bind fun _ ↦ AgreesUpTo.i8.map _
  | branch32 => exact AgreesUpTo.i32.map _
  | invokeInterface =>
    exact AgreesUpTo.u16.bind fun _ ↦ AgreesUpTo.u8.bind fun _ ↦
      (AgreesUpTo.skip (by decide)).map _
  | invokeDynamic =>
    exact AgreesUpTo.u16.bind fun _ ↦ (AgreesUpTo.skip (by decide)).map _
  | multiNewArray => exact AgreesUpTo.u16.bind fun _ ↦ AgreesUpTo.u8.map _
  | tableSwitch => exact agrees_checkedTableSwitch.map _
  | lookupSwitch => exact agrees_checkedLookupSwitch.map _
  | wide => exact agrees_checkedWide

theorem agrees_checkedForm : Agrees checkedForm decodeForm := by
  refine AgreesUpTo.u8.bind fun opcode ↦ ?_
  cases Opcode.layout? opcode with
  | some layout => exact agrees_checkedBehind opcode layout
  | none => exact .refuse rfl

/-- An instruction that decodes takes the bytes that its length says. -/
theorem eq_advance_of_decode {cursor moved : Cursor} {instruction : Instruction}
    (h : decode cursor = (.ok instruction, moved)) :
    instruction.offset = cursor.position ∧ 0 < instruction.length ∧
      instruction.length ≤ cursor.remaining ∧ moved = cursor.advance instruction.length := by
  obtain ⟨bytes, ⟨form, hform, rfl⟩, hrest, hposition⟩ := (reads_decode _ _ _).mp h
  refine ⟨rfl, hform.length_pos, ?_, ?_⟩
  · rw [Cursor.remaining, hrest, List.length_append]
    exact Nat.le_add_right _ _
  · rw [Cursor.advance, hrest, List.drop_left, ← hposition]

/-- No operation fails while the instruction at an offset is read. -/
theorem checkedAt?_eq {code : List UInt8} (hcode : code.length < 2 ^ 32) {offset : Nat}
    (hoffset : offset ≤ code.length) :
    checkedAt? code offset = some (decode ((Cursor.ofBytes code).advance offset)).1 := by
  have hreader : (Reader.ofBytes code).IsValid := Reader.isValid_ofBytes (by omega)
  have hthere : offset ≤ (Reader.ofBytes code).cursor.remaining := hoffset
  have hmoved := (hreader.follows_advance hthere).isValid hreader
  have hposition : ((Cursor.ofBytes code).advance offset).position = offset := Nat.zero_add offset
  have hsame := agrees_checkedForm _ hmoved
  rw [checkedAt?, narrow?_of_lt (by omega), decode, Decoder.bind_apply]
  simp only [Option.bind_eq_bind, Option.bind_some, Checked.bind_apply,
    Checked.skip_apply hreader hthere, Decoder.position, Decoder.bind_apply, Decoder.mapFault,
    hposition]
  rw [Reader.cursor_advance, Reader.cursor_ofBytes] at hsame
  generalize checkedForm _ = outcome at hsame ⊢
  generalize decodeForm _ = outcome' at hsame ⊢
  cases hsame with
  | error few => rfl
  | @ok form _ later alike follows =>
    subst alike
    have hlater := follows.isValid hmoved
    have hstart := follows.position_le
    rw [Reader.cursor_advance, Reader.cursor_ofBytes, hposition] at hstart
    have hstop : later.cursor.position ≤ code.length := by
      have hindex := follows.index_le
      have hbase := follows.base_eq
      simp only [Reader.cursor, hbase, Reader.advance, Reader.ofBytes, Nat.zero_add] at hindex ⊢
      exact hindex
    simp only [Option.bind_some, hlater.position?_eq, sub?_of_le hstart]
    rw [narrow?_of_lt (by omega)]
    rfl

/-- Each round takes one byte at least, so the rounds do not run out. -/
theorem checkedItemsFrom?_eq {code : List UInt8} (hcode : code.length < 2 ^ 32)
    (rounds offset : Nat) (hoffset : offset ≤ code.length)
    (hrounds : code.length - offset < rounds) :
    checkedItemsFrom? code rounds offset =
      some (itemsFrom ((Cursor.ofBytes code).advance offset)) := by
  induction rounds generalizing offset with
  | zero => omega
  | succ rounds ih =>
    have hremaining : ((Cursor.ofBytes code).advance offset).remaining = code.length - offset :=
      Cursor.remaining_advance _ _
    rw [checkedItemsFrom?]
    by_cases hend : code.length ≤ offset
    · have hempty : ((Cursor.ofBytes code).advance offset).isEmpty = true :=
        List.isEmpty_iff.mpr (List.drop_of_length_le hend)
      rw [if_pos hend, itemsFrom_of_isEmpty hempty]
    · rw [if_neg hend, checkedAt?_eq hcode hoffset]
      rcases hdecode : decode ((Cursor.ofBytes code).advance offset) with
        ⟨fault | instruction, moved⟩
      · have hempty : ((Cursor.ofBytes code).advance offset).isEmpty = false := by
          rw [Cursor.isEmpty, List.isEmpty_eq_false_iff, ← List.length_pos_iff]
          rw [Cursor.remaining] at hremaining
          omega
        rw [itemsFrom_of_error hempty hdecode]
        rfl
      · obtain ⟨-, hpos, hlength, rfl⟩ := eq_advance_of_decode hdecode
        rw [itemsFrom_of_ok hdecode, Cursor.advance_advance]
        simp only [Option.bind_eq_bind, Option.bind_some]
        rw [add?_of_lt (by omega), Option.bind_some, ih _ (by omega) (by omega)]
        rfl

/-- No operation fails while the instructions of a method's code are read. -/
theorem checkedItems?_eq {code : List UInt8} (hcode : code.length < 2 ^ 32) :
    checkedItems? code = some (items code) := by
  rw [checkedItems?, checkedItemsFrom?_eq hcode _ 0 (Nat.zero_le _) (by omega),
    Cursor.advance_zero, items]

theorem checkedDecodeAll?_eq {code : List UInt8} (hcode : code.length < 2 ^ 32) :
    checkedDecodeAll? code = some (decodeAll code) := by
  rw [checkedDecodeAll?, checkedItems?_eq hcode]
  rfl

/-- No instruction reaches behind the code. -/
theorem nextOffset_le_of_mem {cursor : Cursor} {instruction : Instruction}
    (h : .ok instruction ∈ itemsFrom cursor) :
    instruction.nextOffset ≤ cursor.position + cursor.remaining := by
  induction cursor using decode_induction with
  | atEnd cursor hempty =>
    rw [itemsFrom_of_isEmpty hempty] at h
    cases h
  | step cursor found moved hdecode ih =>
    obtain ⟨hoffset, -, hlength, rfl⟩ := eq_advance_of_decode hdecode
    rw [itemsFrom_of_ok hdecode, List.mem_cons] at h
    rcases h with hhead | hlater
    · rw [Except.ok.inj hhead, nextOffset]
      omega
    · have hle := ih hlater
      rw [Cursor.remaining_advance, Cursor.advance] at hle
      simp only at hle
      omega
  | stuck cursor fault moved hempty hdecode =>
    rw [itemsFrom_of_error hempty hdecode, List.mem_singleton] at h
    cases h

/-- The offset behind an instruction of the code is a number of 32 bits. -/
theorem checkedNextOffset?_eq {code : List UInt8} (hcode : code.length < 2 ^ 32)
    {instruction : Instruction} (h : .ok instruction ∈ items code) :
    checkedNextOffset? instruction = some instruction.nextOffset := by
  have hle := nextOffset_le_of_mem h
  have hstop : (Cursor.ofBytes code).position + (Cursor.ofBytes code).remaining = code.length :=
    Nat.zero_add _
  rw [hstop, nextOffset] at hle
  exact add?_of_lt (by omega)

end Instruction

end MonitorAudit
