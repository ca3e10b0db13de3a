import Mathlib.Data.List.Chain
import MonitorAudit.Proofs.Bytecode.Faults

/-!
# Instructions tile their code

Assembled instructions lie side by side in the bytes of which they are the assembly
(`Assembly.tile`), and the last one ends where these end (`Assembly.frontier_eq`).

`InstructionStream.yielded` is what a call of `next?` yields behind a number of others. A stream
yields its items in their order and nothing after them (`InstructionStream.yielded_eq_getElem?`).

`Instruction.instructions_tile_code` puts these together: the instructions of a code touch each
other, from the start of the code up to its end or up to the fault, and none reaches behind the end.
-/

set_option autoImplicit false

namespace MonitorAudit

/-! ### Where assembled instructions lie -/

/-- The offset behind the last of some instructions, or zero where there are none. -/
def Instruction.frontier (instructions : List Instruction) : Nat :=
  (instructions.getLast?.map nextOffset).getD 0

/-- The instructions lie side by side, from the start of a code of so many bytes, and inside it. -/
structure Instruction.Tile (instructions : List Instruction) (size : Nat) : Prop where
  starts : ∀ first ∈ instructions.head?, first.offset = 0
  touches : instructions.IsChain fun first second ↦ first.nextOffset = second.offset
  one_le_length : ∀ instruction ∈ instructions, 1 ≤ instruction.length
  nextOffset_le : ∀ instruction ∈ instructions, instruction.nextOffset ≤ size

namespace Assembly

variable {offset : Nat} {code : List UInt8} {instructions : List Instruction}

theorem offset_of_head (h : Assembly offset code instructions) :
    ∀ first ∈ instructions.head?, first.offset = offset := by
  cases h with
  | nil offset => simp
  | cons head tail => simp

/-- Each instruction ends where the next one starts. -/
theorem isChain (h : Assembly offset code instructions) :
    instructions.IsChain fun first second ↦ first.nextOffset = second.offset := by
  induction h with
  | nil offset => exact .nil
  | cons head tail ih =>
    exact .cons ih fun second hsecond ↦ (tail.offset_of_head second hsecond).symm

/-- An instruction takes a byte at least, and only bytes of the code. -/
theorem bounds_of_mem (h : Assembly offset code instructions) :
    ∀ instruction ∈ instructions,
      1 ≤ instruction.length ∧ instruction.nextOffset ≤ offset + code.length := by
  induction h with
  | nil offset => simp
  | @cons offset bytes rest form instructions head tail ih =>
    intro instruction hmem
    rw [List.length_append]
    rcases List.mem_cons.mp hmem with rfl | hmem
    · exact ⟨head.length_pos, by simp only [Instruction.nextOffset]; omega⟩
    · obtain ⟨hlength, hle⟩ := ih instruction hmem
      exact ⟨hlength, by omega⟩

/-- The last instruction ends where the code ends. -/
theorem nextOffset_getLast? (h : Assembly offset code instructions) :
    (instructions.getLast?.map Instruction.nextOffset).getD offset = offset + code.length := by
  induction h with
  | nil offset => simp
  | @cons offset bytes rest form instructions head tail ih =>
    rw [List.getLast?_cons, Option.map_some, Option.getD_some, List.length_append,
      ← Nat.add_assoc, ← ih]
    cases instructions.getLast? <;> rfl

theorem tile (h : Assembly 0 code instructions) {size : Nat} (hsize : code.length ≤ size) :
    Instruction.Tile instructions size where
  starts := h.offset_of_head
  touches := h.isChain
  one_le_length instruction hmem := (h.bounds_of_mem instruction hmem).1
  nextOffset_le instruction hmem := by
    have hle := (h.bounds_of_mem instruction hmem).2
    omega

theorem frontier_eq (h : Assembly 0 code instructions) :
    Instruction.frontier instructions = code.length :=
  h.nextOffset_getLast?.trans (Nat.zero_add _)

end Assembly

/-! ### Streams -/

namespace InstructionStream

/-- The stream after so many calls of `next?`. -/
def after (stream : InstructionStream) : Nat → InstructionStream
  | 0 => stream
  | calls + 1 => stream.next?.2.after calls

/-- What `next?` yields after so many calls of it. -/
def yielded (stream : InstructionStream) (calls : Nat) :
    Option (Except InstructionFault Instruction) :=
  (stream.after calls).next?.1

/-- A stream without items yields nothing and stays as it is. -/
theorem next?_of_items_nil {stream : InstructionStream} (h : stream.items = []) :
    stream.next? = (none, stream) := by
  obtain ⟨cursor, failed⟩ := stream
  cases failed with
  | true => rfl
  | false =>
    have hempty : cursor.isEmpty = true := by
      rw [Cursor.isEmpty, List.isEmpty_iff]
      exact (Instruction.itemsFrom_eq_nil_iff cursor).mp h
    rw [next?, Bool.false_or, if_pos hempty]

/-- A stream yields the first of its items and keeps the others. -/
theorem next?_of_items_cons {stream : InstructionStream}
    {item : Except InstructionFault Instruction}
    {later : List (Except InstructionFault Instruction)} (h : stream.items = item :: later) :
    ∃ behind, stream.next? = (some item, behind) ∧ behind.items = later := by
  obtain ⟨cursor, failed⟩ := stream
  cases failed with
  | true => exact absurd h (List.cons_ne_nil item later).symm
  | false =>
    have hitems : Instruction.itemsFrom cursor = item :: later := h
    cases hempty : cursor.isEmpty with
    | true =>
      rw [Instruction.itemsFrom_of_isEmpty hempty] at hitems
      exact absurd hitems (List.cons_ne_nil item later).symm
    | false =>
      rw [next?, Bool.false_or, hempty, if_neg Bool.false_ne_true]
      rcases hdecode : Instruction.decode cursor with ⟨fault | instruction, moved⟩
      · rw [Instruction.itemsFrom_of_error hempty hdecode] at hitems
        obtain ⟨rfl, rfl⟩ := List.cons.inj hitems
        exact ⟨_, rfl, rfl⟩
      · rw [Instruction.itemsFrom_of_ok hdecode] at hitems
        obtain ⟨rfl, rfl⟩ := List.cons.inj hitems
        exact ⟨_, rfl, rfl⟩

/-- A stream yields its items in their order, and nothing after the last one. -/
theorem yielded_eq_getElem? (stream : InstructionStream) (calls : Nat) :
    stream.yielded calls = stream.items[calls]? := by
  induction calls generalizing stream with
  | zero =>
    cases hitems : stream.items with
    | nil => rw [yielded, after, next?_of_items_nil hitems, List.getElem?_nil]
    | cons item later =>
      obtain ⟨behind, hnext, -⟩ := next?_of_items_cons hitems
      rw [yielded, after, hnext, List.getElem?_cons_zero]
  | succ calls ih =>
    have hlater : stream.yielded (calls + 1) = stream.next?.2.yielded calls := rfl
    rw [hlater, ih]
    cases hitems : stream.items with
    | nil => rw [next?_of_items_nil hitems, hitems, List.getElem?_nil, List.getElem?_nil]
    | cons item later =>
      obtain ⟨behind, hnext, hbehind⟩ := next?_of_items_cons hitems
      rw [hnext, hbehind, List.getElem?_cons_succ]

end InstructionStream

/-! ### The instructions of a code -/

/-- A stream over a code yields finitely many instructions, then a fault if there is one, and then
nothing. The instructions tile the code, up to its end or up to the offset of the fault, and
decoding the whole code at once answers just these instructions or just this fault. -/
theorem Instruction.instructions_tile_code (code : List UInt8) :
    ∃ (instructions : List Instruction) (fault? : Option InstructionFault),
      (∀ calls, (InstructionStream.ofCode code).yielded calls =
        (instructions.map .ok ++ fault?.toList.map .error)[calls]?) ∧
      Tile instructions code.length ∧
      match fault? with
      | none => frontier instructions = code.length ∧ decodeAll code = .ok instructions
      | some fault => fault.offset = frontier instructions ∧ decodeAll code = .error fault := by
  obtain ⟨used, instructions, rest, fault?, hcode, hused, hhalts, hitems⟩ := exists_items code
  have hall : decodeAll code = fault?.elim (.ok instructions) .error := by
    rw [decodeAll, hitems, mapM_id_itemsOf]
  have hlength : code.length = used.length + rest.length := by rw [hcode, List.length_append]
  refine ⟨instructions, fault?, fun calls ↦ ?_, hused.tile (by omega), ?_⟩
  · rw [InstructionStream.yielded_eq_getElem?]
    exact congrArg (·[calls]?) hitems
  · rw [hused.frontier_eq]
    cases hhalts with
    | atEnd hempty =>
      have hrest : rest = [] := List.isEmpty_iff.mp hempty
      exact ⟨by rw [hlength, hrest, List.length_nil, Nat.add_zero], hall⟩
    | stuck hempty hfails =>
      obtain ⟨cause, -, rfl⟩ := failsWith_decode_iff.mp hfails
      exact ⟨rfl, hall⟩

end MonitorAudit
