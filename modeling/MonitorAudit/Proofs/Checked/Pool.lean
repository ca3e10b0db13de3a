import MonitorAudit.ClassFile.ConstantPool
import MonitorAudit.Proofs.Bytes.Extension
import MonitorAudit.Proofs.Checked.Reader

/-!
# Constant pools with machine arithmetic

The texts, the constants and the pool of a class file are read by loops over an index. No operation
of these loops fails, and they answer what the decoders answer (`ModifiedUtf8.checkedDecode_eq`,
`ConstantPool.agrees_checked`). The index of a pool stays below its count, which is why adding one
to it never overflows; two are added to it with saturation, and that changes the index only where
the loop is over.

The queries of a pool reach no place that is not meant to be reached (`ConstantPool.checkedUtf8?_eq`
and those that follow it), and the indices of its entries are numbers of 16 bits
(`ConstantPool.checkedEntries?_eq`).
-/

set_option autoImplicit false

namespace MonitorAudit

/-! ### Texts -/

namespace ModifiedUtf8

/-- The unit at an index of the bytes and the number of its bytes. -/
def checkedUnit (bytes : List UInt8) (index : Nat) : Option (UInt16 × Nat) := do
  let first ← bytes[index]?
  match Width.of first with
  | .one => return (first.toUInt16, 1)
  | .two =>
    let next ← add? 64 index 1
    if next < bytes.length then
      let second ← bytes[next]?
      return (unitOfTwo first second, 2)
    else return (replacementUnit, 1)
  | .three =>
    let last ← add? 64 index 2
    if last < bytes.length then
      let next ← add? 64 index 1
      let second ← bytes[next]?
      let third ← bytes[last]?
      return (unitOfThree first second third, 3)
    else return (replacementUnit, 1)
  | .none => return (replacementUnit, 1)

/-- The units from an index of the bytes on, behind those already found, in so many rounds. -/
def checkedUnitsFrom (bytes : List UInt8) : Nat → Nat → List UInt16 → Option (List UInt16)
  | 0, _, _ => none
  | rounds + 1, index, units =>
    if index < bytes.length then do
      let (unit, width) ← checkedUnit bytes index
      let next ← add? 64 index width
      checkedUnitsFrom bytes rounds next (units ++ [unit])
    else some units

/-- The text of any bytes. -/
def checkedDecode (bytes : List UInt8) : Option String :=
  match String.fromUTF8? bytes.toByteArray with
  | some text => some text
  | none =>
    (checkedUnitsFrom bytes (bytes.length + 1) 0 []).map fun units ↦
      String.ofList (Utf16.decodeLossy units)

/-- The unit at an index is the one that is split off there. -/
theorem exists_checkedUnit (front rest : List UInt8) (first : UInt8)
    (h : front.length + (rest.length + 1) < 2 ^ 63) :
    ∃ unit width, checkedUnit (front ++ first :: rest) front.length = some (unit, width) ∧
      1 ≤ width ∧ width ≤ rest.length + 1 ∧
      ∀ split, unitsOnto split (first :: rest) =
        unitsOnto (unit :: split) ((first :: rest).drop width) := by
  have hfirst : (front ++ first :: rest)[front.length]? = some first := by simp
  have hone : add? 64 front.length 1 = some (front.length + 1) := add?_of_lt (by omega)
  have htwo : add? 64 front.length 2 = some (front.length + 2) := add?_of_lt (by omega)
  unfold checkedUnit
  rw [hfirst]
  simp only [Option.bind_eq_bind, Option.bind_some, hone, htwo]
  cases hwidth : Width.of first with
  | one =>
    refine ⟨first.toUInt16, 1, rfl, by omega, by omega, fun split ↦ ?_⟩
    rw [unitsOnto.eq_def]
    simp only [hwidth, List.drop_succ_cons, List.drop_zero]
  | none =>
    refine ⟨replacementUnit, 1, rfl, by omega, by omega, fun split ↦ ?_⟩
    rw [unitsOnto.eq_def]
    simp only [hwidth, List.drop_succ_cons, List.drop_zero]
  | two =>
    cases rest with
    | nil =>
      refine ⟨replacementUnit, 1, by simp, by omega, by simp, fun split ↦ ?_⟩
      rw [unitsOnto, hwidth]
      rfl
    | cons second rest =>
      refine ⟨unitOfTwo first second, 2, by simp, by omega, by simp, fun split ↦ ?_⟩
      rw [unitsOnto, hwidth]
      rfl
  | three =>
    match rest with
    | [] =>
      refine ⟨replacementUnit, 1, by simp, by omega, by simp, fun split ↦ ?_⟩
      rw [unitsOnto, hwidth]
      rfl
    | [second] =>
      refine ⟨replacementUnit, 1, by simp, by omega, by simp, fun split ↦ ?_⟩
      rw [unitsOnto, hwidth]
      rfl
    | second :: third :: rest =>
      refine ⟨unitOfThree first second third, 3, by simp, by omega, by simp, fun split ↦ ?_⟩
      rw [unitsOnto, hwidth]
      rfl

/-- Each round takes one byte at least, so the rounds do not run out. -/
theorem checkedUnitsFrom_eq {bytes : List UInt8} (h : bytes.length < 2 ^ 63) (rounds index : Nat)
    (units : List UInt16) (hindex : index ≤ bytes.length)
    (hrounds : bytes.length - index < rounds) :
    checkedUnitsFrom bytes rounds index units =
      some (unitsOnto units.reverse (bytes.drop index)) := by
  induction rounds generalizing index units with
  | zero => omega
  | succ rounds ih =>
    rw [checkedUnitsFrom]
    by_cases hless : index < bytes.length
    · have hfront : (bytes.take index).length = index := List.length_take_of_le hindex
      have hbytes : bytes.take index ++ bytes[index] :: bytes.drop (index + 1) = bytes := by
        rw [← List.drop_eq_getElem_cons hless, List.take_append_drop]
      obtain ⟨unit, width, hunit, hpos, hwidth, hsplit⟩ :=
        exists_checkedUnit (bytes.take index) (bytes.drop (index + 1)) bytes[index] (by
          rw [hfront, List.length_drop]
          omega)
      rw [hbytes, hfront] at hunit
      rw [List.length_drop] at hwidth
      rw [if_pos hless, hunit]
      simp only [Option.bind_eq_bind, Option.bind_some]
      rw [add?_of_lt (by omega), Option.bind_some, ih _ _ (by omega) (by omega),
        List.reverse_append, List.reverse_singleton, List.singleton_append, ← List.drop_drop,
        List.drop_eq_getElem_cons hless, hsplit]
    · rw [if_neg hless, List.drop_of_length_le (Nat.le_of_not_lt hless), unitsOnto,
        List.reverse_reverse]

/-- No operation fails while a text is decoded. -/
theorem checkedDecode_eq {bytes : List UInt8} (h : bytes.length < 2 ^ 63) :
    checkedDecode bytes = some (decode bytes) := by
  unfold checkedDecode decode
  cases String.fromUTF8? bytes.toByteArray with
  | some text => rfl
  | none =>
    simp only
    rw [checkedUnitsFrom_eq h _ 0 [] (Nat.zero_le _) (by omega)]
    rfl

end ModifiedUtf8

/-! ### Constants -/

instance : CountsMissing MalformedClass where
  missing
    | .truncated _ wanted => wanted
    | _ => 0

instance : LawfulMissing MalformedClass := ⟨fun _ ↦ Nat.le_refl _⟩

open Checked (ofValue AgreesUpTo Agrees)

/-- Reads the part of a constant behind its tag. -/
def ConstantKind.checked {ε : Type} [OfEndOfData ε] : ConstantKind → Checked ε Constant
  | utf8 => do
    let length ← Checked.u16
    let bytes ← Checked.take length.toNat
    return .utf8 (← ofValue (ModifiedUtf8.checkedDecode bytes))
  | integer => do return .integer (← Checked.i32)
  | float => do return .float (← Checked.u32)
  | long => do return .long (← Checked.u64).toInt64
  | double => do return .double (← Checked.u64)
  | classRef => do return .classRef (← Checked.u16)
  | string => do return .string (← Checked.u16)
  | fieldRef => do return .fieldRef (← Checked.u16) (← Checked.u16)
  | methodRef => do return .methodRef (← Checked.u16) (← Checked.u16)
  | interfaceMethodRef => do return .interfaceMethodRef (← Checked.u16) (← Checked.u16)
  | nameAndType => do return .nameAndType (← Checked.u16) (← Checked.u16)
  | methodHandle => do return .methodHandle (← Checked.u8) (← Checked.u16)
  | methodType => do return .methodType (← Checked.u16)
  | dynamic => do return .dynamic (← Checked.u16) (← Checked.u16)
  | invokeDynamic => do return .invokeDynamic (← Checked.u16) (← Checked.u16)
  | moduleRef => do return .moduleRef (← Checked.u16)
  | packageRef => do return .packageRef (← Checked.u16)

theorem ConstantKind.agrees_checked {ε : Type} [OfEndOfData ε] [CountsMissing ε] [LawfulMissing ε]
    (kind : ConstantKind) : Agrees (kind.checked : Checked ε Constant) kind.decode := by
  have word (f : UInt16 → Constant) := (AgreesUpTo.u16 (ε := ε)).map f
  have words (f : UInt16 → UInt16 → Constant) :=
    (AgreesUpTo.u16 (ε := ε)).bind fun first ↦ AgreesUpTo.u16.map (f first)
  cases kind with
  | utf8 =>
    refine AgreesUpTo.u16.bind fun length ↦ ?_
    have hlength := length.toNat_lt
    refine (AgreesUpTo.take_length (by omega)).bind_related fun bytes _ ⟨heq, htaken⟩ ↦ heq ▸ ?_
    exact .ofValue_bind (ModifiedUtf8.checkedDecode_eq (by omega)) (.pure _)
  | integer => exact AgreesUpTo.i32.map _
  | float => exact AgreesUpTo.u32.map _
  | long => exact AgreesUpTo.u64.map _
  | double => exact AgreesUpTo.u64.map _
  | methodHandle => exact AgreesUpTo.u8.bind fun kind ↦ word _
  | classRef | string | methodType | moduleRef | packageRef => exact word _
  | fieldRef | methodRef | interfaceMethodRef | nameAndType | dynamic | invokeDynamic =>
    exact words _

/-! ### Pools -/

namespace ConstantPool

/-- A constant at the slot `index`, tag first. -/
def checkedConstant (index : Nat) : Checked MalformedClass Constant := do
  let offset ← Checked.position
  let tag ← Checked.u8
  match ConstantKind.ofTag? tag with
  | some kind => kind.checked
  | none => Checked.fail (.badConstantTag tag (UInt16.ofNat index) offset)

/-- Fills the slots from `index` on until `count` is reached, in so many rounds. The index is a
number of 16 bits; two are added to it with saturation. -/
def checkedSlots (count : Nat) :
    Nat → Nat → List (Option Constant) → Checked MalformedClass (List (Option Constant))
  | 0, _, _ => Checked.unreachable
  | rounds + 1, index, slots =>
    if index < count then do
      let constant ← checkedConstant index
      if constant.isWide then
        checkedSlots count rounds (min (index + 2) (2 ^ 16 - 1)) (slots ++ [some constant, none])
      else do
        let next ← ofValue (add? 16 index 1)
        checkedSlots count rounds next (slots ++ [some constant])
    else return slots

/-- Reads a constant pool: the declared count, and constants until its slots are filled. -/
def checked : Checked MalformedClass ConstantPool := do
  let count ← Checked.u16
  let slots ← checkedSlots count.toNat (count.toNat + 1) 1 [none]
  return ⟨count, (slots.take (max count.toNat 1)).toArray⟩

theorem agrees_checkedConstant (index : Nat) :
    Agrees (checkedConstant index) (decodeConstant index) := by
  refine AgreesUpTo.position.bind fun offset ↦ AgreesUpTo.u8.bind fun tag ↦ ?_
  cases ConstantKind.ofTag? tag with
  | some kind => exact kind.agrees_checked
  | none => exact .refuse rfl

/-- The index that the loop keeps is the slot to be filled, up to the largest number of 16 bits,
which is no slot below the count. -/
theorem agrees_checkedSlots {count : Nat} (hcount : count < 2 ^ 16) (rounds index : Nat)
    (constants : List Constant) (hpos : 0 < rounds) (hrounds : count < index + rounds) :
    AgreesUpTo (fun slots all ↦ slots = none :: all.flatMap Constant.slots)
      (checkedSlots count rounds (min index (2 ^ 16 - 1))
        (none :: constants.reverse.flatMap Constant.slots))
      (decodeConstantsOnto count index constants) := by
  induction rounds generalizing index constants with
  | zero => exact absurd hpos (Nat.lt_irrefl 0)
  | succ rounds ih =>
    rw [checkedSlots, decodeConstantsOnto]
    by_cases hless : index < count
    · have hindex : min index (2 ^ 16 - 1) = index := by omega
      rw [hindex, if_pos hless, if_pos hless]
      refine (agrees_checkedConstant index).bind fun constant ↦ ?_
      have hslots : none :: (constant :: constants).reverse.flatMap Constant.slots =
          none :: constants.reverse.flatMap Constant.slots ++ constant.slots := by simp
      have hnext := ih (index + constant.width) (constant :: constants)
      rw [hslots] at hnext
      by_cases hwide : constant.isWide
      · have hwidth : constant.width = 2 := if_pos hwide
        rw [Constant.slots, if_pos hwide, hwidth] at hnext
        rw [if_pos hwide, hwidth]
        exact hnext (by omega) (by omega)
      · have hwidth : constant.width = 1 := if_neg hwide
        rw [Constant.slots, if_neg hwide, hwidth, Nat.min_eq_left (by omega)] at hnext
        rw [if_neg hwide, hwidth]
        exact .ofValue_bind (add?_of_lt (by omega)) (hnext (by omega) (by omega))
    · rw [if_neg (by omega), if_neg hless]
      exact fun _ hreader ↦ .ok rfl hreader.follows_self

/-- No operation fails while a pool is read. -/
theorem agrees_checked : Agrees checked decode := by
  refine AgreesUpTo.u16.bind fun count ↦ ?_
  refine (agrees_checkedSlots count.toNat_lt (count.toNat + 1) 1 [] (Nat.succ_pos _)
    (by omega)).bind_related fun slots constants hslots ↦ ?_
  subst hslots
  exact .pure _

/-! ### Queries -/

/-- The text of a slot. -/
def checkedUtf8? (pool : ConstantPool) (index : UInt16) : Option (Except PoolFault String) :=
  match pool.resolve? index .utf8 with
  | .ok (.utf8 text) => some (.ok text)
  | .ok _ => none
  | .error fault => some (.error fault)

/-- The name of the class to which a slot refers. -/
def checkedClassName? (pool : ConstantPool) (index : UInt16) : Option (Except PoolFault String) :=
  match pool.resolve? index .classRef with
  | .ok (.classRef nameIndex) => pool.checkedUtf8? nameIndex
  | .ok _ => none
  | .error fault => some (.error fault)

/-- The name and the descriptor to which a slot refers. -/
def checkedNameAndType? (pool : ConstantPool) (index : UInt16) :
    Option (Except PoolFault (String × String)) :=
  match pool.resolve? index .nameAndType with
  | .ok (.nameAndType nameIndex descriptorIndex) => do
    let name ← pool.checkedUtf8? nameIndex
    match name with
    | .error fault => return .error fault
    | .ok name => return (← pool.checkedUtf8? descriptorIndex).map (name, ·)
  | .ok _ => none
  | .error fault => some (.error fault)

/-- The constants of the slots from an index on, with their indices, which are numbers of
16 bits. -/
def checkedEntriesFrom : Nat → List (Option Constant) → Option (List (UInt16 × Constant))
  | _, [] => some []
  | index, none :: slots => checkedEntriesFrom (index + 1) slots
  | index, some constant :: slots => do
    let narrow ← narrow? 16 index
    let entries ← checkedEntriesFrom (index + 1) slots
    return (UInt16.ofNat narrow, constant) :: entries

/-- The constants with their indices, in increasing order. -/
def checkedEntries? (pool : ConstantPool) : Option (List (UInt16 × Constant)) :=
  checkedEntriesFrom 0 pool.slots.toList

section

variable (pool : ConstantPool) (index : UInt16)

theorem checkedUtf8?_eq : pool.checkedUtf8? index = some (pool.utf8? index) := by
  unfold checkedUtf8? utf8? resolve?
  cases pool.get? index with
  | error fault => rfl
  | ok constant => cases constant <;> rfl

theorem checkedClassName?_eq : pool.checkedClassName? index = some (pool.className? index) := by
  unfold checkedClassName? className? resolve?
  cases pool.get? index with
  | error fault => rfl
  | ok constant =>
    cases constant with
    | classRef nameIndex => exact pool.checkedUtf8?_eq nameIndex
    | _ => rfl

theorem checkedNameAndType?_eq :
    pool.checkedNameAndType? index = some (pool.nameAndType? index) := by
  unfold checkedNameAndType? nameAndType? resolve?
  cases pool.get? index with
  | error fault => rfl
  | ok constant =>
    cases constant with
    | nameAndType nameIndex descriptorIndex =>
      simp only [checkedUtf8?_eq, bind, Except.bind, Option.bind_some, Constant.kind, if_true]
      cases pool.utf8? nameIndex with
      | error fault => rfl
      | ok name => cases pool.utf8? descriptorIndex <;> rfl
    | _ => rfl

end

theorem checkedEntriesFrom_eq (slots : List (Option Constant)) (index : Nat)
    (h : index + slots.length ≤ 2 ^ 16) :
    checkedEntriesFrom index slots =
      some ((slots.zipIdx index).filterMap fun (slot, index) ↦
        slot.map fun constant ↦ (UInt16.ofNat index, constant)) := by
  induction slots generalizing index with
  | nil => rfl
  | cons slot slots ih =>
    rw [List.length_cons] at h
    have hrest := ih (index + 1) (by omega)
    cases slot with
    | none => exact hrest
    | some constant =>
      rw [checkedEntriesFrom, narrow?_of_lt (by omega), hrest]
      rfl

/-- The slots of a pool that was read have indices of 16 bits. -/
theorem size_slots_lt {cursor left : Cursor} {pool : ConstantPool}
    (h : decode cursor = (.ok pool, left)) : pool.slots.size < 2 ^ 16 := by
  obtain ⟨count, _, -, hconstants⟩ := Decoder.bind_eq_ok_iff.mp h
  obtain ⟨constants, _, -, hpool⟩ := Decoder.bind_eq_ok_iff.mp hconstants
  obtain ⟨rfl, -⟩ : ofConstants count constants = pool ∧ _ := by simpa using hpool
  have hcount := count.toNat_lt
  have hsize := List.length_take_le (max count.toNat 1) (none :: constants.flatMap Constant.slots)
  simp only [ofConstants, List.size_toArray]
  omega

theorem checkedEntries?_eq {pool : ConstantPool} (h : pool.slots.size < 2 ^ 16) :
    pool.checkedEntries? = some pool.entries :=
  checkedEntriesFrom_eq _ 0 (by simpa using Nat.le_of_lt h)

end ConstantPool

end MonitorAudit
