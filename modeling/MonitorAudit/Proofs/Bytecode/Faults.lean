import MonitorAudit.Proofs.Bytecode.Assembly
import MonitorAudit.Proofs.Bytes.Faults

/-!
# The fault of a code

A code that does not decode is an assembly of instructions up to the fault, and the fault carries
the offset at which they end. What it says of the byte there, and of those behind it, is so
(`InstructionCause.Explains`): the byte is no opcode, `wide` modifies an opcode that names no local
variable, the bounds of a switch are the wrong way round, or the operands are not all there.

Decoding goes on until the code ends or an instruction does not decode (`Instruction.Halts`). Up to
there the code is an assembly of its instructions, and the items are those instructions and the
fault, if there is one (`Instruction.exists_items`).
-/

set_option autoImplicit false

namespace MonitorAudit

/-- The opcodes whose operands can be refused for what they say. -/
theorem Opcode.eq_of_stretchLayout? (opcode : UInt8) :
    (stretchLayout? opcode = some .tableSwitch → opcode = 0xAA) ∧
      (stretchLayout? opcode = some .lookupSwitch → opcode = 0xAB) ∧
        (stretchLayout? opcode = some .wide → opcode = 0xC4) := by
  have hall : ∀ number < 256,
      (stretchLayout? (UInt8.ofNat number) = some .tableSwitch → UInt8.ofNat number = 0xAA) ∧
        (stretchLayout? (UInt8.ofNat number) = some .lookupSwitch → UInt8.ofNat number = 0xAB) ∧
          (stretchLayout? (UInt8.ofNat number) = some .wide → UInt8.ofNat number = 0xC4) := by
    decide +kernel
  simpa using hall opcode.toNat opcode.toNat_lt

/-- What the cause of a fault says about the bytes from the offset of the fault on is so. -/
inductive InstructionCause.Explains (offset : Nat) : InstructionCause → List UInt8 → Prop
  | unknownOpcode {opcode : UInt8} {rest : List UInt8}
      (unknown : Opcode.stretchLayout? opcode = none) :
      Explains offset (.unknownOpcode opcode) (opcode :: rest)
  | truncated {opcode : UInt8} {layout : Layout} {rest : List UInt8}
      (known : Opcode.stretchLayout? opcode = some layout)
      (lacks : ∀ operands tail form, rest = operands ++ tail →
        ¬ OperandBytes (offset + 1) opcode layout operands form) :
      Explains offset .truncated (opcode :: rest)
  | badWideTarget {target : UInt8} {rest : List UInt8}
      (ne_slot : Opcode.stretchLayout? target ≠ some .slot)
      (ne_increment : Opcode.stretchLayout? target ≠ some .increment) :
      Explains offset (.badWideTarget target) (0xC4 :: target :: rest)
  | tableSwitch {padding rest : List UInt8} {default low high : Int32}
      (padded : PadsToFour (offset + 1) padding) (high_lt_low : high.toInt < low.toInt) :
      Explains offset .malformedSwitch
        (0xAA :: (padding ++ (signed32 default ++ (signed32 low ++ (signed32 high ++ rest)))))
  | lookupSwitch {padding rest : List UInt8} {default count : Int32}
      (padded : PadsToFour (offset + 1) padding) (count_neg : count.toInt < 0) :
      Explains offset .malformedSwitch
        (0xAB :: (padding ++ (signed32 default ++ (signed32 count ++ rest))))

/-- The fault is about the bytes of the code that stand behind an assembly of instructions. -/
inductive InstructionFault.PointsInto (code : List UInt8) : InstructionFault → Prop
  | intro {used rest : List UInt8} {instructions : List Instruction} {cause : InstructionCause}
      (code_eq : code = used ++ rest) (assembled : Assembly 0 used instructions)
      (explains : cause.Explains used.length rest) : PointsInto code ⟨used.length, cause⟩

/-- The offset of a fault is one of a byte. -/
theorem InstructionFault.PointsInto.offset_lt {code : List UInt8} {fault : InstructionFault}
    (h : fault.PointsInto code) : fault.offset < code.length := by
  obtain ⟨rfl, -, hexplains⟩ := h
  cases hexplains <;> simp

namespace Instruction

open Decoder (FaultsIn FailsWith Reads failsWith_bind_iff)

/-! ### Operands that are not all there -/

/-- The kind of fault that is for a read past the end alone. -/
def onlyTruncated : FaultKind InstructionCause where
  Holds _ cause := cause = .truncated
  of_isShort h := h.2
  of_advance _ h := h

theorem faultsIn_i32 : (Decoder.i32 : Decoder InstructionCause Int32).FaultsIn onlyTruncated :=
  .i32

theorem faultsIn_i16 : (Decoder.i16 : Decoder InstructionCause Int16).FaultsIn onlyTruncated :=
  .map .u16 _

theorem faultsIn_skipPadding : skipPadding.FaultsIn onlyTruncated :=
  .bind .position fun _ ↦ .map (.take _) _

theorem faultsIn_switchPair :
    FaultsIn (do
      let key ← Decoder.i32
      let target ← Decoder.i32
      return (key, target) : Decoder InstructionCause (Int32 × Int32)) onlyTruncated :=
  .bind .i32 fun _ ↦ .map .i32 _

/-- Operands whose layout leaves nothing to refuse can only be too short. -/
theorem faultsIn_decodeBehind (opcode : UInt8) {layout : Layout} (htable : layout ≠ .tableSwitch)
    (hlookup : layout ≠ .lookupSwitch) (hwide : layout ≠ .wide) :
    (decodeBehind opcode layout).FaultsIn onlyTruncated := by
  have hi8 : (Decoder.i8 : Decoder InstructionCause Int8).FaultsIn onlyTruncated := .map .u8 _
  have hskip (count : Nat) :
      (Decoder.skip count : Decoder InstructionCause Unit).FaultsIn onlyTruncated :=
    .map (.take count) _
  cases layout with
  | tableSwitch | lookupSwitch | wide => contradiction
  | none => exact .pure _
  | signedByte => exact hi8.map _
  | signedShort | branch16 => exact faultsIn_i16.map _
  | constant8 | slot | arrayType => exact .map .u8 _
  | constant16 => exact .map .u16 _
  | increment => exact .bind .u8 fun _ ↦ hi8.map _
  | branch32 => exact .map .i32 _
  | invokeInterface => exact .bind .u16 fun _ ↦ .bind .u8 fun _ ↦ (hskip 1).map _
  | invokeDynamic => exact .bind .u16 fun _ ↦ (hskip 2).map _
  | multiNewArray => exact .bind .u16 fun _ ↦ .map .u8 _

/-! ### Operands that are refused -/

variable {cursor : Cursor} {cause : InstructionCause}

/-- A table switch is refused if its bounds are the wrong way round. -/
theorem failsWith_decodeTableSwitch (h : decodeTableSwitch.FailsWith cursor cause) :
    cause = .truncated ∨ cause = .malformedSwitch ∧
      ∃ padding default low high rest, PadsToFour cursor.position padding ∧
        high.toInt < low.toInt ∧ cursor.rest =
          padding ++ (signed32 default ++ (signed32 low ++ (signed32 high ++ rest))) := by
  rcases failsWith_bind_iff.mp h with hshort | ⟨_, first, hpadding, h⟩
  · exact .inl (faultsIn_skipPadding.holds hshort)
  rcases failsWith_bind_iff.mp h with hshort | ⟨default, second, hdefault, h⟩
  · exact .inl (faultsIn_i32.holds hshort)
  rcases failsWith_bind_iff.mp h with hshort | ⟨low, third, hlow, h⟩
  · exact .inl (faultsIn_i32.holds hshort)
  rcases failsWith_bind_iff.mp h with hshort | ⟨high, fourth, hhigh, h⟩
  · exact .inl (faultsIn_i32.holds hshort)
  split at h
  · rename_i hbounds
    obtain ⟨padding, hpads, hrest, -⟩ := (reads_skipPadding _ _ _).mp hpadding
    obtain ⟨_, rfl, hrest', -⟩ := (Reads.i32 _ _ _).mp hdefault
    obtain ⟨_, rfl, hrest'', -⟩ := (Reads.i32 _ _ _).mp hlow
    obtain ⟨_, rfl, hrest''', -⟩ := (Reads.i32 _ _ _).mp hhigh
    refine .inr ⟨(Decoder.failsWith_fail_iff.mp h).symm, padding, default, low, high, fourth.rest,
      hpads, Int32.lt_iff_toInt_lt.mp hbounds, ?_⟩
    rw [hrest, hrest', hrest'', hrest''']
  · have htable : FaultsIn (Decoder.times (high.toInt - low.toInt + 1).toNat Decoder.i32)
        onlyTruncated := .times .i32 _
    exact .inl ((htable.map _).holds h)

/-- A lookup switch is refused if its count is negative. -/
theorem failsWith_decodeLookupSwitch (h : decodeLookupSwitch.FailsWith cursor cause) :
    cause = .truncated ∨ cause = .malformedSwitch ∧
      ∃ padding default count rest, PadsToFour cursor.position padding ∧ count.toInt < 0 ∧
        cursor.rest = padding ++ (signed32 default ++ (signed32 count ++ rest)) := by
  rcases failsWith_bind_iff.mp h with hshort | ⟨_, first, hpadding, h⟩
  · exact .inl (faultsIn_skipPadding.holds hshort)
  rcases failsWith_bind_iff.mp h with hshort | ⟨default, second, hdefault, h⟩
  · exact .inl (faultsIn_i32.holds hshort)
  rcases failsWith_bind_iff.mp h with hshort | ⟨count, third, hcount, h⟩
  · exact .inl (faultsIn_i32.holds hshort)
  split at h
  · rename_i hnegative
    obtain ⟨padding, hpads, hrest, -⟩ := (reads_skipPadding _ _ _).mp hpadding
    obtain ⟨_, rfl, hrest', -⟩ := (Reads.i32 _ _ _).mp hdefault
    obtain ⟨_, rfl, hrest'', -⟩ := (Reads.i32 _ _ _).mp hcount
    refine .inr ⟨(Decoder.failsWith_fail_iff.mp h).symm, padding, default, count, third.rest,
      hpads, by simpa using Int32.lt_iff_toInt_lt.mp hnegative, ?_⟩
    rw [hrest, hrest', hrest'']
  · exact .inl (((faultsIn_switchPair.times _).map _).holds h)

/-- An opcode behind `wide` is refused if it names no local variable. -/
theorem failsWith_decodeWide (h : decodeWide.FailsWith cursor cause) :
    cause = .truncated ∨ ∃ target rest, cause = .badWideTarget target ∧
      cursor.rest = target :: rest ∧ Opcode.isWidenable target = false := by
  rcases failsWith_bind_iff.mp h with hshort | ⟨target, behind, htarget, h⟩
  · exact .inl (Decoder.failsWith_u8_iff.mp hshort).2
  obtain ⟨_, rfl, hrest, -⟩ := (Reads.u8 _ _ _).mp htarget
  split at h
  · have hoperands : FaultsIn (do
        let index ← Decoder.u16
        if target = Opcode.iinc then
          return ⟨target, true, .increment index (← Decoder.i16)⟩
        else return ⟨target, true, .slot index⟩ : Decoder InstructionCause InstructionForm)
        onlyTruncated :=
      .bind .u16 fun index ↦ .ite (faultsIn_i16.map _) (.pure _)
    exact .inl (hoperands.holds h)
  · rename_i hwiden
    exact .inr ⟨target, behind.rest, (Decoder.failsWith_fail_iff.mp h).symm, hrest,
      by simpa using hwiden⟩

/-! ### Instructions -/

/-- Where there is an opcode, an instruction is refused for a cause that explains the bytes. -/
theorem explains_of_decodeForm (hempty : cursor.isEmpty = false)
    (h : decodeForm.FailsWith cursor cause) : cause.Explains cursor.position cursor.rest := by
  rcases failsWith_bind_iff.mp h with hshort | ⟨opcode, behind, hopcode, hbehind⟩
  · have hnone := (Decoder.failsWith_u8_iff.mp hshort).1
    have hsome : cursor.rest ≠ [] := List.isEmpty_eq_false_iff.mp hempty
    exact absurd (List.length_pos_iff.mpr hsome) (by rw [Cursor.remaining] at hnone; omega)
  obtain ⟨_, rfl, hrest, hposition⟩ := (Reads.u8 _ _ _).mp hopcode
  rw [hrest, List.singleton_append]
  rw [List.length_singleton] at hposition
  cases hknown : Opcode.stretchLayout? opcode with
  | none =>
    rw [Opcode.layout?_eq_stretchLayout?, hknown] at hbehind
    obtain rfl := Decoder.failsWith_fail_iff.mp hbehind
    exact .unknownOpcode hknown
  | some layout =>
    rw [Opcode.layout?_eq_stretchLayout?, hknown] at hbehind
    have hshort (hcause : cause = .truncated) :
        cause.Explains cursor.position (opcode :: behind.rest) := by
      rw [hcause]
      refine .truncated hknown fun operands tail form hoperands hbytes ↦ ?_
      rw [← hposition] at hbytes
      have hread := (reads_decodeBehind opcode layout behind form
        ⟨tail, behind.position + operands.length⟩).mpr ⟨operands, hbytes, hoperands, rfl⟩
      exact Decoder.not_failsWith_of_ok hread cause hbehind
    obtain ⟨htable, hlookup, hwide⟩ := Opcode.eq_of_stretchLayout? opcode
    cases layout with
    | tableSwitch =>
      rcases failsWith_decodeTableSwitch (Decoder.failsWith_map_iff.mp hbehind) with hcause |
        ⟨rfl, padding, default, low, high, rest, hpads, hbounds, hbytes⟩
      · exact hshort hcause
      · rw [hposition] at hpads
        rw [hbytes, htable hknown]
        exact .tableSwitch hpads hbounds
    | lookupSwitch =>
      rcases failsWith_decodeLookupSwitch (Decoder.failsWith_map_iff.mp hbehind) with hcause |
        ⟨rfl, padding, default, count, rest, hpads, hcount, hbytes⟩
      · exact hshort hcause
      · rw [hposition] at hpads
        rw [hbytes, hlookup hknown]
        exact .lookupSwitch hpads hcount
    | wide =>
      rcases failsWith_decodeWide hbehind with hcause | ⟨target, rest, rfl, hbytes, hwiden⟩
      · exact hshort hcause
      · rw [hbytes, hwide hknown]
        have hneither := (Opcode.isWidenable_iff target).not.mp (by simp [hwiden])
        exact .badWideTarget (fun h ↦ hneither (.inl h)) fun h ↦ hneither (.inr h)
    | _ =>
      exact hshort ((faultsIn_decodeBehind opcode (by simp) (by simp) (by simp)).holds hbehind)

/-- An instruction is an opcode with its operands and the place where these stand. -/
theorem decode_apply (cursor : Cursor) :
    decode cursor =
      match decodeForm cursor with
      | (.ok form, left) => (.ok ⟨form, cursor.position, left.position - cursor.position⟩, left)
      | (.error cause, left) => (.error ⟨cursor.position, cause⟩, left) := by
  rw [decode, Decoder.bind_apply, Decoder.position]
  simp only [Decoder.bind_apply, Decoder.mapFault]
  rcases decodeForm cursor with ⟨cause | form, left⟩ <;> rfl

/-- An instruction is refused for a cause of its opcode and operands, at its own offset. -/
theorem failsWith_decode_iff {fault : InstructionFault} :
    decode.FailsWith cursor fault ↔
      ∃ cause, decodeForm.FailsWith cursor cause ∧ fault = ⟨cursor.position, cause⟩ := by
  simp only [Decoder.FailsWith, decode_apply]
  rcases decodeForm cursor with ⟨cause | form, left⟩ <;> simp [eq_comm]

/-! ### All instructions -/

/-- Decoding goes no further than a cursor: it is at the end, or no instruction decodes there. -/
inductive Halts (site : Cursor) : Option InstructionFault → Prop
  | atEnd (isEmpty : site.isEmpty = true) : Halts site none
  | stuck {fault : InstructionFault} (isEmpty : site.isEmpty = false)
      (fails : decode.FailsWith site fault) : Halts site (some fault)

/-- The items that are instructions and behind them a fault, if there is one. -/
def itemsOf (instructions : List Instruction) (fault? : Option InstructionFault) :
    List (Except InstructionFault Instruction) :=
  instructions.map .ok ++ fault?.toList.map .error

theorem Halts.itemsFrom_eq {fault? : Option InstructionFault} (h : Halts cursor fault?) :
    itemsFrom cursor = fault?.toList.map .error := by
  cases h with
  | atEnd hempty => exact itemsFrom_of_isEmpty hempty
  | stuck hempty hfails =>
    obtain ⟨left, hdecode⟩ := Decoder.failsWith_iff.mp hfails
    exact itemsFrom_of_error hempty hdecode

/-- Decoding goes over an assembly of instructions and then halts. -/
theorem exists_halt (cursor : Cursor) :
    ∃ used instructions rest fault?, cursor.rest = used ++ rest ∧
      Assembly cursor.position used instructions ∧
        Halts ⟨rest, cursor.position + used.length⟩ fault? := by
  induction cursor using decode_induction with
  | atEnd cursor hempty => exact ⟨[], [], cursor.rest, none, rfl, .nil _, .atEnd hempty⟩
  | step cursor instruction moved hdecode ih =>
    obtain ⟨used, instructions, rest, fault?, hrest, hused, hhalts⟩ := ih
    obtain ⟨bytes, ⟨form, hbytes, rfl⟩, hfront, hposition⟩ := (reads_decode _ _ _).mp hdecode
    rw [hposition] at hused hhalts
    refine ⟨bytes ++ used, _, rest, fault?, ?_, .cons hbytes hused, ?_⟩
    · rw [hfront, hrest, List.append_assoc]
    · rwa [List.length_append, ← Nat.add_assoc]
  | stuck cursor fault moved hempty hdecode =>
    exact ⟨[], [], cursor.rest, some fault, rfl, .nil _,
      .stuck hempty (Decoder.failsWith_iff.mpr ⟨moved, hdecode⟩)⟩

/-- Where instructions are assembled they are the first items, and decoding goes on behind them. -/
theorem itemsFrom_of_assembly {offset : Nat} {used : List UInt8} {instructions : List Instruction}
    (h : Assembly offset used instructions) (rest : List UInt8) :
    itemsFrom ⟨used ++ rest, offset⟩ =
      instructions.map .ok ++ itemsFrom ⟨rest, offset + used.length⟩ := by
  induction h with
  | nil offset => rfl
  | @cons offset bytes behind form instructions head tail ih =>
    have hdecode := reads_decode.run offset ⟨form, head, rfl⟩ (behind ++ rest)
    rw [List.append_assoc, itemsFrom_of_ok hdecode, ih, List.length_append, Nat.add_assoc]
    rfl

/-- A code is an assembly of instructions up to where decoding halts, and these are its items. -/
theorem exists_items (code : List UInt8) :
    ∃ used instructions rest fault?, code = used ++ rest ∧ Assembly 0 used instructions ∧
      Halts ⟨rest, used.length⟩ fault? ∧ items code = itemsOf instructions fault? := by
  obtain ⟨used, instructions, rest, fault?, hcode, hused, hhalts⟩ :=
    exists_halt (Cursor.ofBytes code)
  simp only [Cursor.ofBytes, Nat.zero_add] at hcode hused hhalts
  refine ⟨used, instructions, rest, fault?, hcode, hused, hhalts, ?_⟩
  rw [items, Cursor.ofBytes, hcode, itemsFrom_of_assembly hused, Nat.zero_add, hhalts.itemsFrom_eq,
    itemsOf]

/-- All instructions are kept, or else the fault behind them. -/
theorem mapM_id_itemsOf (instructions : List Instruction) (fault? : Option InstructionFault) :
    (itemsOf instructions fault?).mapM id = fault?.elim (.ok instructions) .error := by
  induction instructions with
  | nil => cases fault? <;> rfl
  | cons instruction instructions ih =>
    rw [itemsOf] at ih ⊢
    rw [List.map_cons, List.cons_append, List.mapM_cons, ih]
    cases fault? <;> rfl

/-- A code that does not decode is refused for a fault that points into it. -/
theorem pointsInto_of_decodeAll {code : List UInt8} {fault : InstructionFault}
    (h : decodeAll code = .error fault) : fault.PointsInto code := by
  obtain ⟨used, instructions, rest, fault?, hcode, hused, hhalts, hitems⟩ := exists_items code
  rw [decodeAll, hitems, mapM_id_itemsOf] at h
  cases hhalts with
  | atEnd hempty => cases h
  | stuck hempty hfails =>
    obtain rfl := Except.error.inj h
    obtain ⟨cause, hcause, rfl⟩ := failsWith_decode_iff.mp hfails
    exact .intro hcode hused (explains_of_decodeForm hempty hcause)

end Instruction

end MonitorAudit
