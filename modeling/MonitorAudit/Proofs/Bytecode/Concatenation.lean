import MonitorAudit.Proofs.Bytecode.Faults

/-!
# Code behind code

The operands of an instruction depend on the place of the instruction only through the padding of a
switch, which is counted modulo four, and on the bytes behind it only where it runs out of bytes.
`Instruction.Relocatable` states both for a decoder, and sequencing keeps it. So an instruction
decodes alike at places a multiple of four apart (`Instruction.itemsFrom_shift`), and what halts
decoding halts it whatever stands behind, unless that is a lack of bytes
(`Instruction.Halts.extend`).

`Instruction.items_append` puts these together for one code behind another.
-/

set_option autoImplicit false

namespace MonitorAudit

/-- The same bytes further on in the code. -/
def Cursor.shift (cursor : Cursor) (distance : Nat) : Cursor :=
  ⟨cursor.rest, cursor.position + distance⟩

/-- The same instruction further on in the code. -/
def Instruction.shift (instruction : Instruction) (distance : Nat) : Instruction :=
  { instruction with offset := instruction.offset + distance }

/-- The same fault further on in the code. -/
def InstructionFault.shift (fault : InstructionFault) (distance : Nat) : InstructionFault :=
  { fault with offset := fault.offset + distance }

/-- The same item further on in the code. -/
def shiftItem (distance : Nat) :
    Except InstructionFault Instruction → Except InstructionFault Instruction
  | .ok instruction => .ok (instruction.shift distance)
  | .error fault => .error (fault.shift distance)

namespace Instruction

/-! ### Decoders that do not see their place -/

/-- Moving the bytes by a multiple of four changes no answer, and bytes behind them change only the
answer that there are too few. -/
structure Relocatable {α : Type} (decoder : Decoder InstructionCause α) : Prop where
  shift : ∀ (cursor : Cursor) (distance : Nat), 4 ∣ distance →
    decoder (cursor.shift distance) = ((decoder cursor).1, (decoder cursor).2.shift distance)
  extend : ∀ (cursor : Cursor) (more : List UInt8), (decoder cursor).1 ≠ .error .truncated →
    decoder (cursor.extend more) = ((decoder cursor).1, (decoder cursor).2.extend more)

namespace Relocatable

variable {α β : Type}

theorem pure (value : α) : Relocatable (Pure.pure value : Decoder InstructionCause α) where
  shift _ _ _ := rfl
  extend _ _ _ := rfl

theorem fail (cause : InstructionCause) :
    Relocatable (Decoder.fail cause : Decoder InstructionCause α) where
  shift _ _ _ := rfl
  extend _ _ _ := rfl

theorem take (count : Nat) :
    Relocatable (Decoder.take count : Decoder InstructionCause (List UInt8)) where
  shift cursor distance _ := by
    have hremaining : (cursor.shift distance).remaining = cursor.remaining := rfl
    by_cases hcount : count ≤ cursor.remaining
    · rw [Decoder.take, Decoder.take, Cursor.splitAt?_of_le hcount,
        Cursor.splitAt?_of_le (hremaining ▸ hcount)]
      simp only [Cursor.shift, Cursor.advance, Nat.add_right_comm]
    · rw [Decoder.take, Decoder.take, Cursor.splitAt?_of_lt (Nat.lt_of_not_le hcount),
        Cursor.splitAt?_of_lt (hremaining ▸ Nat.lt_of_not_le hcount)]
      rfl
  extend cursor more hanswer := by
    by_cases hcount : count ≤ cursor.remaining
    · have hextended : count ≤ (cursor.extend more).remaining := by
        rw [Cursor.remaining_extend]
        omega
      rw [Decoder.take, Decoder.take, Cursor.splitAt?_of_le hcount,
        Cursor.splitAt?_of_le hextended]
      simp only [Cursor.advance_extend hcount]
      rw [Cursor.extend, List.take_append_of_le_length hcount]
    · refine absurd ?_ hanswer
      rw [Decoder.take, Cursor.splitAt?_of_lt (Nat.lt_of_not_le hcount)]
      rfl

/-- A sequence of parts that do not see their place does not see it either. -/
theorem bind {first : Decoder InstructionCause α} {next : α → Decoder InstructionCause β}
    (hfirst : Relocatable first) (hnext : ∀ value, Relocatable (next value)) :
    Relocatable (first >>= next) where
  shift cursor distance hdistance := by
    rw [Decoder.bind_apply, Decoder.bind_apply, hfirst.shift cursor distance hdistance]
    rcases first cursor with ⟨cause | middle, between⟩
    · rfl
    · exact (hnext middle).shift between distance hdistance
  extend cursor more hanswer := by
    have hextend := hfirst.extend cursor more
    rw [Decoder.bind_apply] at hanswer
    rw [Decoder.bind_apply, Decoder.bind_apply]
    generalize first cursor = outcome at hanswer hextend ⊢
    rcases outcome with ⟨cause | middle, between⟩
    · have hcause : cause ≠ .truncated := fun h ↦ hanswer (congrArg Except.error h)
      rw [hextend fun h ↦ hcause (Except.error.inj h)]
    · rw [hextend (by simp)]
      exact (hnext middle).extend between more hanswer

theorem map {decoder : Decoder InstructionCause α} (h : Relocatable decoder) (f : α → β) :
    Relocatable (f <$> decoder) :=
  h.bind fun value ↦ pure (f value)

theorem ite {condition : Prop} [Decidable condition] {yes no : Decoder InstructionCause α}
    (hyes : Relocatable yes) (hno : Relocatable no) :
    Relocatable (if condition then yes else no) := by
  split
  · exact hyes
  · exact hno

theorem times {row : Decoder InstructionCause α} (h : Relocatable row) (count : Nat) :
    Relocatable (Decoder.times count row) := by
  induction count with
  | zero => exact pure []
  | succ count ih =>
    rw [Decoder.times_succ]
    exact h.bind fun _ ↦ ih.bind fun _ ↦ pure _

theorem u8 : Relocatable (Decoder.u8 : Decoder InstructionCause UInt8) := (take 1).map _

theorem u16 : Relocatable (Decoder.u16 : Decoder InstructionCause UInt16) := (take 2).map _

theorem i8 : Relocatable (Decoder.i8 : Decoder InstructionCause Int8) := u8.map _

theorem i16 : Relocatable (Decoder.i16 : Decoder InstructionCause Int16) := u16.map _

theorem i32 : Relocatable (Decoder.i32 : Decoder InstructionCause Int32) :=
  ((take 4).map _).map _

theorem skip (count : Nat) : Relocatable (Decoder.skip count : Decoder InstructionCause Unit) :=
  (take count).map _

/-- The padding of a switch sees its place, but only modulo four. -/
theorem skipPadding : Relocatable skipPadding where
  shift cursor distance hdistance := by
    have hpadding : (4 - (cursor.position + distance) % 4) % 4 = (4 - cursor.position % 4) % 4 := by
      omega
    change Decoder.skip ((4 - (cursor.position + distance) % 4) % 4) (cursor.shift distance) = _
    rw [hpadding]
    exact (skip ((4 - cursor.position % 4) % 4)).shift cursor distance hdistance
  extend cursor more hanswer := (skip ((4 - cursor.position % 4) % 4)).extend cursor more hanswer

theorem decodeTableSwitch : Relocatable decodeTableSwitch :=
  skipPadding.bind fun _ ↦ i32.bind fun _ ↦ i32.bind fun _ ↦ i32.bind fun _ ↦
    .ite (.fail _) ((i32.times _).map _)

theorem decodeLookupSwitch : Relocatable decodeLookupSwitch :=
  skipPadding.bind fun _ ↦ i32.bind fun _ ↦ i32.bind fun _ ↦
    .ite (.fail _) (((i32.bind fun _ ↦ i32.map _).times _).map _)

theorem decodeWide : Relocatable decodeWide :=
  u8.bind fun _ ↦ .ite (u16.bind fun _ ↦ .ite (i16.map _) (.pure _)) (.fail _)

theorem decodeBehind (opcode : UInt8) (layout : Layout) :
    Relocatable (decodeBehind opcode layout) := by
  cases layout with
  | none => exact .pure _
  | signedByte => exact i8.map _
  | signedShort | branch16 => exact i16.map _
  | constant8 | slot | arrayType => exact u8.map _
  | constant16 => exact u16.map _
  | increment => exact u8.bind fun _ ↦ i8.map _
  | branch32 => exact i32.map _
  | invokeInterface => exact u16.bind fun _ ↦ u8.bind fun _ ↦ (skip 1).map _
  | invokeDynamic => exact u16.bind fun _ ↦ (skip 2).map _
  | multiNewArray => exact u16.bind fun _ ↦ u8.map _
  | tableSwitch => exact decodeTableSwitch.map _
  | lookupSwitch => exact decodeLookupSwitch.map _
  | wide => exact decodeWide

theorem decodeForm : Relocatable decodeForm := by
  refine u8.bind fun opcode ↦ ?_
  cases Opcode.layout? opcode with
  | some layout => exact decodeBehind opcode layout
  | none => exact .fail _

end Relocatable

/-! ### The same instructions in another place -/

/-- An instruction decodes alike at places a multiple of four apart. -/
theorem decode_shift (cursor : Cursor) {distance : Nat} (hdistance : 4 ∣ distance) :
    decode (cursor.shift distance) =
      (shiftItem distance (decode cursor).1, (decode cursor).2.shift distance) := by
  rw [decode_apply, decode_apply, Relocatable.decodeForm.shift cursor distance hdistance]
  rcases decodeForm cursor with ⟨cause | form, left⟩
  · rfl
  · simp only [Cursor.shift, Nat.add_sub_add_right]
    rfl

/-- So do all instructions from a place on. -/
theorem itemsFrom_shift (cursor : Cursor) {distance : Nat} (hdistance : 4 ∣ distance) :
    itemsFrom (cursor.shift distance) = (itemsFrom cursor).map (shiftItem distance) := by
  induction cursor using decode_induction with
  | atEnd cursor hempty =>
    have hshifted : (cursor.shift distance).isEmpty = true := hempty
    rw [itemsFrom_of_isEmpty hempty, itemsFrom_of_isEmpty hshifted, List.map_nil]
  | step cursor instruction moved hdecode ih =>
    have hshifted := decode_shift cursor hdistance
    rw [hdecode] at hshifted
    rw [itemsFrom_of_ok hdecode, itemsFrom_of_ok hshifted, List.map_cons, ← ih]
    rfl
  | stuck cursor fault moved hempty hdecode =>
    have hshifted := decode_shift cursor hdistance
    have hthere : (cursor.shift distance).isEmpty = false := hempty
    rw [hdecode] at hshifted
    rw [itemsFrom_of_error hempty hdecode, itemsFrom_of_error hthere hshifted]
    rfl

/-- What halts decoding halts it whatever stands behind, unless there are too few bytes. -/
theorem Halts.extend {site : Cursor} {fault : InstructionFault} (h : Halts site (some fault))
    (hcause : fault.cause ≠ .truncated) (more : List UInt8) :
    Halts (site.extend more) (some fault) := by
  cases h with
  | stuck hempty hfails =>
    obtain ⟨cause, hform, rfl⟩ := failsWith_decode_iff.mp hfails
    have hanswer : (decodeForm site).1 ≠ .error .truncated := by
      rw [hform]
      exact fun h ↦ hcause (Except.error.inj h)
    have hextended : (site.extend more).isEmpty = false := by
      have hrest := List.isEmpty_eq_false_iff.mp hempty
      exact List.isEmpty_eq_false_iff.mpr (List.append_ne_nil_of_left_ne_nil hrest more)
    refine .stuck hextended (failsWith_decode_iff.mpr ⟨cause, ?_, rfl⟩)
    rw [Decoder.FailsWith, Relocatable.decodeForm.extend site more hanswer]
    exact hform

/-! ### One code behind another -/

/-- Decoding a code with another one behind it goes over the instructions of the first, and from
where it halts there it goes on with the bytes of the second. -/
theorem items_append_of_assembly {used : List UInt8} {instructions : List Instruction}
    (h : Assembly 0 used instructions) (rest back : List UInt8) :
    items (used ++ rest ++ back) =
      instructions.map .ok ++ itemsFrom ((⟨rest, used.length⟩ : Cursor).extend back) := by
  rw [items, Cursor.ofBytes, List.append_assoc, itemsFrom_of_assembly h, Nat.zero_add]
  rfl

/-- Bytes behind a code change nothing up to a fault in it, and change the fault only if that is a
lack of bytes. Behind a code that is all instructions, and whose length is a multiple of four,
another code decodes to what it is on its own, moved by that length. -/
theorem items_append (front back : List UInt8) :
    (∀ fault, decodeAll front = .error fault → fault.cause ≠ .truncated →
      items (front ++ back) = items front) ∧
    (∀ fault, decodeAll front = .error fault → fault.cause = .truncated →
      ∃ instructions : List Instruction, items front = instructions.map .ok ++ [.error fault] ∧
        instructions.map .ok <+: items (front ++ back)) ∧
    ∀ instructions, decodeAll front = .ok instructions → 4 ∣ front.length →
      items (front ++ back) =
        instructions.map .ok ++ (items back).map (shiftItem front.length) := by
  obtain ⟨used, found, rest, fault?, hfront, hused, hhalts, hitems⟩ := exists_items front
  have hall : decodeAll front = fault?.elim (.ok found) .error := by
    rw [decodeAll, hitems, mapM_id_itemsOf]
  have happend := items_append_of_assembly hused rest back
  rw [← hfront] at happend
  refine ⟨?refused, ?truncated, ?accepted⟩
  case refused =>
    intro fault hfault hcause
    rw [hall] at hfault
    cases fault? with
    | none => cases hfault
    | some first =>
      obtain rfl := Except.error.inj hfault
      rw [happend, (hhalts.extend hcause back).itemsFrom_eq, hitems, itemsOf]
  case truncated =>
    intro fault hfault _
    rw [hall] at hfault
    cases fault? with
    | none => cases hfault
    | some first =>
      obtain rfl := Except.error.inj hfault
      exact ⟨found, hitems, happend ▸ List.prefix_append _ _⟩
  case accepted =>
    intro instructions hinstructions hlength
    rw [hall] at hinstructions
    cases hhalts with
    | stuck hempty hfails => cases hinstructions
    | atEnd hempty =>
      obtain rfl := Except.ok.inj hinstructions
      have hrest : rest = [] := List.isEmpty_iff.mp hempty
      rw [hrest, List.append_nil] at hfront
      rw [happend, items, ← itemsFrom_shift _ hlength, hrest, hfront, Cursor.shift, Cursor.ofBytes,
        Nat.zero_add]
      rfl

/-- An opcode that there is not, an operand of which a byte is missing and four instructions of a
byte each, with a switch behind them that has padding. -/
theorem items_append_lookupSwitch :
    items ([0x00, 0xCB] ++ [0xAB, 0, 0, 0, 0, 0, 0, 8, 0, 0, 0, 0]) = items [0x00, 0xCB] ∧
    (∃ instructions : List Instruction,
      items [0x00, 0x11, 0x05] = instructions.map .ok ++ [.error ⟨1, .truncated⟩] ∧
        instructions.map .ok <+:
          items ([0x00, 0x11, 0x05] ++ [0xAB, 0, 0, 0, 0, 0, 0, 8, 0, 0, 0, 0])) ∧
    items ([0x03, 0x3B, 0x1A, 0xAC] ++ [0xAB, 0, 0, 0, 0, 0, 0, 8, 0, 0, 0, 0]) =
      [.ok ⟨⟨0x03, false, .none⟩, 0, 1⟩, .ok ⟨⟨0x3B, false, .none⟩, 1, 1⟩,
        .ok ⟨⟨0x1A, false, .none⟩, 2, 1⟩, .ok ⟨⟨0xAC, false, .none⟩, 3, 1⟩,
        .ok ⟨⟨0xAB, false, .lookupSwitch 8 []⟩, 4, 12⟩] := by
  have hrefused : decodeAll [0x00, 0xCB] = .error ⟨1, .unknownOpcode 0xCB⟩ := by decide +kernel
  have htruncated : decodeAll [0x00, 0x11, 0x05] = .error ⟨1, .truncated⟩ := by decide +kernel
  have haccepted : decodeAll [0x03, 0x3B, 0x1A, 0xAC] =
      .ok [⟨⟨0x03, false, .none⟩, 0, 1⟩, ⟨⟨0x3B, false, .none⟩, 1, 1⟩,
        ⟨⟨0x1A, false, .none⟩, 2, 1⟩, ⟨⟨0xAC, false, .none⟩, 3, 1⟩] := by
    decide +kernel
  have hswitch : items [0xAB, 0, 0, 0, 0, 0, 0, 8, 0, 0, 0, 0] =
      [.ok ⟨⟨0xAB, false, .lookupSwitch 8 []⟩, 0, 12⟩] := by
    decide +kernel
  refine ⟨(items_append _ _).1 _ hrefused (by decide), (items_append _ _).2.1 _ htruncated rfl, ?_⟩
  rw [(items_append _ _).2.2 _ haccepted (by decide), hswitch]
  rfl

end Instruction

end MonitorAudit
