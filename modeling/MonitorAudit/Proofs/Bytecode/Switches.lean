import Mathlib.Order.Bounds.Defs
import MonitorAudit.Proofs.Bytecode.Faults
import MonitorAudit.Proofs.Bytes.Whole
import MonitorAudit.Proofs.Checked.Instruction

/-!
# Switches

`Instruction.tableSwitchAt` and `Instruction.lookupSwitchAt` say what is decoded where a switch
stands. They compare integers of any size with the number of the bytes of the code: the code can be
too short for the words in front of the table, these words can be refused, and the code can be too
short for the table they ask for, in this order.

`Instruction.Takes` says of a decoder that it takes the bytes of the code from one place up to
another if the code goes so far, and otherwise runs out of bytes. Sequencing joins two such
stretches (`Instruction.Takes.bind`), and rows are a stretch of as many times their size
(`Instruction.Takes.times`).

`Instruction.switches_decided_exactly` says that the decoder does what these functions say, that the
machine arithmetic of `Instruction.checkedAt?` does so as well, and that the table a switch asks for
is not reserved before the code is known to hold it.
-/

set_option autoImplicit false

namespace MonitorAudit

open Checked (ofValue)

namespace Instruction

/-! ### What a switch says -/

/-- The four bytes at a place of the code as a number with a sign. -/
def wordAt (code : List UInt8) (place : Nat) : Int :=
  Int.bmod (magnitude ((code.drop place).take 4)) (2 ^ 32)

/-- What is decoded for the opcode of a table switch at `offset`, whose operands stand from `start`
on. -/
def tableSwitchAt (code : List UInt8) (offset start : Nat) :
    Except InstructionFault Instruction :=
  let low := wordAt code (start + 4)
  let high := wordAt code (start + 8)
  let stop : Int := start + 12 + 4 * (high - low + 1)
  if code.length < start + 12 then .error ⟨offset, .truncated⟩
  else if high < low then .error ⟨offset, .malformedSwitch⟩
  else if code.length < stop then .error ⟨offset, .truncated⟩
  else
    let offsets := (List.range (high - low + 1).toNat).map fun row ↦
      Int32.ofInt (wordAt code (start + 12 + 4 * row))
    .ok {
      opcode := 0xAA
      wide := false
      operands := .tableSwitch (.ofInt (wordAt code start)) (.ofInt low) (.ofInt high) offsets
      offset
      length := (stop - offset).toNat }

/-- What is decoded for the opcode of a lookup switch at `offset`, whose operands stand from `start`
on. -/
def lookupSwitchAt (code : List UInt8) (offset start : Nat) :
    Except InstructionFault Instruction :=
  let count := wordAt code (start + 4)
  let stop : Int := start + 8 + 8 * count
  if code.length < start + 8 then .error ⟨offset, .truncated⟩
  else if count < 0 then .error ⟨offset, .malformedSwitch⟩
  else if code.length < stop then .error ⟨offset, .truncated⟩
  else
    let pairs := (List.range count.toNat).map fun row ↦
      (Int32.ofInt (wordAt code (start + 8 + 8 * row)),
        Int32.ofInt (wordAt code (start + 8 + 8 * row + 4)))
    .ok {
      opcode := 0xAB
      wide := false
      operands := .lookupSwitch (.ofInt (wordAt code start)) pairs
      offset
      length := (stop - offset).toNat }

/-- A number of 32 bits with a sign that stands for a word of the code is that word. -/
@[simp] theorem toInt_ofInt_wordAt (code : List UInt8) (place : Nat) :
    (Int32.ofInt (wordAt code place)).toInt = wordAt code place := by
  rw [Int32.toInt_ofInt]
  exact Int.bmod_bmod

/-- The number of 32 bits with a sign that has the same remainder. -/
theorem toInt32_ofNat (number : Nat) :
    (UInt32.ofNat number).toInt32 = Int32.ofInt (Int.bmod number (2 ^ 32)) := by
  refine Int32.toInt_inj.mp ?_
  simp

/-! ### Stretches of the code -/

/-- The decoder takes the bytes from the start up to the stop, if the code goes so far, and answers
the value. Otherwise it runs out of bytes. -/
structure Takes {α : Type} (code : List UInt8) (decoder : Decoder InstructionCause α)
    (start stop : Nat) (value : α) : Prop where
  of_le : stop ≤ code.length →
    decoder ((Cursor.ofBytes code).advance start) = (.ok value, (Cursor.ofBytes code).advance stop)
  of_lt : start ≤ code.length → code.length < stop →
    decoder.FailsWith ((Cursor.ofBytes code).advance start) .truncated

namespace Takes

variable {α β : Type} {code : List UInt8} {start middle stop : Nat} {value : α}

theorem pure : Takes code (Pure.pure value : Decoder InstructionCause α) start start value where
  of_le _ := rfl
  of_lt hle hlt := absurd hle (Nat.not_le_of_lt hlt)

theorem take (code : List UInt8) (start count : Nat) :
    Takes code (Decoder.take count) start (start + count) ((code.drop start).take count) where
  of_le hstop := by
    refine Decoder.take_eq_ok_iff.mpr ⟨?_, rfl, (Cursor.advance_advance _ _ _).symm⟩
    rw [Cursor.remaining_advance]
    exact Nat.le_sub_of_add_le' hstop
  of_lt hstart hstop := by
    refine Decoder.failsWith_take_iff.mpr ⟨?_, rfl⟩
    rw [Cursor.remaining_advance]
    exact Nat.sub_lt_left_of_lt_add hstart hstop

/-- Two stretches side by side are one. -/
theorem bind {first : Decoder InstructionCause α} {next : α → Decoder InstructionCause β}
    {last : β} (hfirst : Takes code first start middle value)
    (hnext : Takes code (next value) middle stop last) (hmiddle : middle ≤ stop) :
    Takes code (first >>= next) start stop last where
  of_le hstop := by
    rw [Decoder.bind_apply, hfirst.of_le (Nat.le_trans hmiddle hstop)]
    exact hnext.of_le hstop
  of_lt hstart hstop := by
    by_cases hthere : middle ≤ code.length
    · refine Decoder.failsWith_bind_iff.mpr (.inr ⟨value, _, hfirst.of_le hthere, ?_⟩)
      exact hnext.of_lt hthere hstop
    · exact Decoder.failsWith_bind_iff.mpr (.inl (hfirst.of_lt hstart (Nat.lt_of_not_le hthere)))

theorem map {decoder : Decoder InstructionCause α} (h : Takes code decoder start stop value)
    (f : α → β) : Takes code (f <$> decoder) start stop (f value) :=
  h.bind pure (Nat.le_refl stop)

/-- Rows one behind the other take as many times the bytes of one. -/
theorem times {row : Decoder InstructionCause α} {size : Nat} {values : Nat → α}
    (hrow : ∀ place, Takes code row (start + size * place) (start + size * place + size)
      (values place)) (count : Nat) :
    Takes code (Decoder.times count row) start (start + size * count)
      ((List.range count).map values) := by
  induction count generalizing start values with
  | zero => exact pure
  | succ count ih =>
    have hfirst := hrow 0
    have hlater (place : Nat) : Takes code row (start + size + size * place)
        (start + size + size * place + size) (values (place + 1)) := by
      have hplace := hrow (place + 1)
      rwa [Nat.mul_add_one, Nat.add_comm (size * place), ← Nat.add_assoc] at hplace
    rw [Nat.mul_zero, Nat.add_zero] at hfirst
    rw [Decoder.times_succ, List.range_succ_eq_map, List.map_cons, List.map_map, Nat.mul_add_one,
      Nat.add_comm (size * count), ← Nat.add_assoc]
    exact hfirst.bind ((ih hlater).map _) (by omega)

theorem i32 (code : List UInt8) (start : Nat) :
    Takes code Decoder.i32 start (start + 4) (Int32.ofInt (wordAt code start)) := by
  have hvalue : (UInt32.ofNat (bigEndian ((code.drop start).take 4))).toInt32 =
      Int32.ofInt (wordAt code start) := by
    rw [bigEndian_eq_magnitude]
    exact toInt32_ofNat _
  exact hvalue ▸ ((take code start 4).map _).map _

/-- The padding of a switch ends at the least multiple of four that is not in front of it. -/
theorem skipPadding {place : Nat} (code : List UInt8)
    (h : IsLeast {stop | 4 ∣ stop ∧ place ≤ stop} start) :
    Takes code skipPadding place start () := by
  obtain ⟨⟨haligned, hplace⟩, hleast⟩ := h
  have hnext : start ≤ place + (4 - place % 4) % 4 := hleast ⟨by omega, by omega⟩
  have hpadding : start = place + (4 - place % 4) % 4 := by omega
  have hskip := (take code place ((4 - place % 4) % 4)).map fun _ ↦ ()
  rw [← hpadding] at hskip
  have hposition : ((Cursor.ofBytes code).advance place).position = place := Nat.zero_add place
  have hrun : Instruction.skipPadding ((Cursor.ofBytes code).advance place) =
      ((fun _ ↦ ()) <$> Decoder.take ((4 - place % 4) % 4) : Decoder InstructionCause Unit)
        ((Cursor.ofBytes code).advance place) := by
    rw [Instruction.skipPadding, Decoder.bind_apply, Decoder.position, hposition]
    rfl
  exact ⟨fun hle ↦ hrun.trans (hskip.of_le hle), fun hle hlt ↦ by
    rw [Decoder.FailsWith, hrun]
    exact hskip.of_lt hle hlt⟩

end Takes

/-! ### Where a switch stands -/

/-- An opcode whose operands are words that may be refused and a table behind them is decoded to a
fault or an instruction by what of it the code holds. -/
theorem decode_of_takes {β : Type} {code : List UInt8} {offset middle stop : Nat} {opcode : UInt8}
    {layout : Layout} {head : Decoder InstructionCause β} {refused : β → Prop}
    [DecidablePred refused] {table : β → Decoder InstructionCause Operands} {words : β}
    {operands : Operands}
    (hopcode : code[offset]? = some opcode) (hlayout : Opcode.layout? opcode = some layout)
    (hbehind : decodeBehind opcode layout = InstructionForm.mk opcode false <$>
      (head >>= fun words ↦
        if refused words then Decoder.fail .malformedSwitch else table words))
    (hhead : Takes code head (offset + 1) middle words)
    (htable : ¬ refused words → Takes code (table words) middle stop operands) :
    (decode ((Cursor.ofBytes code).advance offset)).1 =
      if code.length < middle then .error ⟨offset, .truncated⟩
      else if refused words then .error ⟨offset, .malformedSwitch⟩
      else if code.length < stop then .error ⟨offset, .truncated⟩
      else .ok ⟨⟨opcode, false, operands⟩, offset, stop - offset⟩ := by
  obtain ⟨hoffset, hbyte⟩ := List.getElem?_eq_some_iff.mp hopcode
  have hread : (Decoder.u8 : Decoder InstructionCause UInt8)
      ((Cursor.ofBytes code).advance offset) =
        (.ok opcode, (Cursor.ofBytes code).advance (offset + 1)) := by
    refine (Decoder.Reads.u8 _ _ _).mpr ⟨[opcode], rfl, ?_, rfl⟩
    rw [← hbyte]
    exact List.drop_eq_getElem_cons hoffset
  have hform : decodeForm ((Cursor.ofBytes code).advance offset) =
      decodeBehind opcode layout ((Cursor.ofBytes code).advance (offset + 1)) := by
    rw [decodeForm, Decoder.bind_apply, hread]
    simp only [hlayout]
  have hposition (place : Nat) : ((Cursor.ofBytes code).advance place).position = place :=
    Nat.zero_add place
  have hrefuse {cause : InstructionCause} (hfails : (head >>= fun words ↦
        if refused words then Decoder.fail .malformedSwitch else table words).FailsWith
          ((Cursor.ofBytes code).advance (offset + 1)) cause) :
      (decode ((Cursor.ofBytes code).advance offset)).1 = .error ⟨offset, cause⟩ := by
    refine failsWith_decode_iff.mpr ⟨cause, ?_, by rw [hposition]⟩
    rw [Decoder.FailsWith, hform, hbehind]
    exact Decoder.failsWith_map_iff.mpr hfails
  by_cases hshort : code.length < middle
  · rw [if_pos hshort]
    exact hrefuse (Decoder.failsWith_bind_iff.mpr (.inl (hhead.of_lt hoffset hshort)))
  have hmiddle : middle ≤ code.length := Nat.le_of_not_lt hshort
  rw [if_neg hshort]
  by_cases hrefused : refused words
  · rw [if_pos hrefused]
    refine hrefuse (Decoder.failsWith_bind_iff.mpr (.inr ⟨words, _, hhead.of_le hmiddle, ?_⟩))
    rw [if_pos hrefused]
    exact Decoder.failsWith_fail_iff.mpr rfl
  rw [if_neg hrefused]
  by_cases hcut : code.length < stop
  · rw [if_pos hcut]
    refine hrefuse (Decoder.failsWith_bind_iff.mpr (.inr ⟨words, _, hhead.of_le hmiddle, ?_⟩))
    rw [if_neg hrefused]
    exact (htable hrefused).of_lt hmiddle hcut
  · rw [if_neg hcut, decode_apply, hform, hbehind, Decoder.map_apply, Decoder.bind_apply,
      hhead.of_le hmiddle]
    simp only [if_neg hrefused, (htable hrefused).of_le (Nat.le_of_not_lt hcut), hposition]

/-- The words in front of the rows of a table switch. -/
def tableSwitchHead : Decoder InstructionCause (Int32 × Int32 × Int32) := do
  skipPadding
  let default ← Decoder.i32
  let low ← Decoder.i32
  let high ← Decoder.i32
  return (default, low, high)

/-- The words in front of the rows of a lookup switch. -/
def lookupSwitchHead : Decoder InstructionCause (Int32 × Int32) := do
  skipPadding
  let default ← Decoder.i32
  let count ← Decoder.i32
  return (default, count)

section

variable {code : List UInt8} {offset start : Nat}

theorem takes_tableSwitchHead (hstart : IsLeast {place | 4 ∣ place ∧ offset + 1 ≤ place} start) :
    Takes code tableSwitchHead (offset + 1) (start + 12)
      (.ofInt (wordAt code start), .ofInt (wordAt code (start + 4)),
        .ofInt (wordAt code (start + 8))) :=
  have hplace : offset + 1 ≤ start := hstart.1.2
  (Takes.skipPadding code hstart).bind ((Takes.i32 code start).bind ((Takes.i32 code _).bind
    ((Takes.i32 code _).map _) (by omega)) (by omega)) (by omega)

theorem takes_lookupSwitchHead (hstart : IsLeast {place | 4 ∣ place ∧ offset + 1 ≤ place} start) :
    Takes code lookupSwitchHead (offset + 1) (start + 8)
      (.ofInt (wordAt code start), .ofInt (wordAt code (start + 4))) :=
  have hplace : offset + 1 ≤ start := hstart.1.2
  (Takes.skipPadding code hstart).bind ((Takes.i32 code start).bind ((Takes.i32 code _).map _)
    (by omega)) (by omega)

/-- The rows of a switch stand behind the words in front of them. -/
theorem decode_eq_tableSwitchAt (hopcode : code[offset]? = some 0xAA)
    (hstart : IsLeast {place | 4 ∣ place ∧ offset + 1 ≤ place} start) :
    (decode ((Cursor.ofBytes code).advance offset)).1 = tableSwitchAt code offset start := by
  have hlayout : Opcode.layout? 0xAA = some .tableSwitch := by decide +kernel
  have hbehind : decodeBehind 0xAA .tableSwitch = InstructionForm.mk 0xAA false <$>
      (tableSwitchHead >>= fun words ↦
        if words.2.2 < words.2.1 then Decoder.fail .malformedSwitch
        else .tableSwitch words.1 words.2.1 words.2.2 <$>
          Decoder.times (words.2.2.toInt - words.2.1.toInt + 1).toNat Decoder.i32) := by
    simp [decodeBehind, decodeTableSwitch, tableSwitchHead]
  have hdecode := decode_of_takes hopcode hlayout hbehind (takes_tableSwitchHead hstart)
    fun hbounds ↦ (Takes.times (fun row ↦ Takes.i32 code (start + 12 + 4 * row)) _).map _
  have hbounds : Int32.ofInt (wordAt code (start + 8)) < Int32.ofInt (wordAt code (start + 4)) ↔
      wordAt code (start + 8) < wordAt code (start + 4) := by
    rw [Int32.lt_iff_toInt_lt, toInt_ofInt_wordAt, toInt_ofInt_wordAt]
  rw [hdecode, tableSwitchAt]
  simp only [toInt_ofInt_wordAt, hbounds]
  generalize wordAt code (start + 4) = low, wordAt code (start + 8) = high
  by_cases hinverted : high < low
  · simp only [if_pos hinverted]
  · have hrows : (((high - low + 1).toNat : Nat) : Int) = high - low + 1 :=
      Int.toNat_of_nonneg (by omega)
    have hstop : (start : Int) + 12 + 4 * (high - low + 1) =
        (start + 12 + 4 * (high - low + 1).toNat : Nat) := by omega
    rw [hstop]
    simp only [if_neg hinverted, Int.ofNat_lt, Int.toNat_sub]

/-- The pairs of a switch stand behind the words in front of them. -/
theorem decode_eq_lookupSwitchAt (hopcode : code[offset]? = some 0xAB)
    (hstart : IsLeast {place | 4 ∣ place ∧ offset + 1 ≤ place} start) :
    (decode ((Cursor.ofBytes code).advance offset)).1 = lookupSwitchAt code offset start := by
  have hlayout : Opcode.layout? 0xAB = some .lookupSwitch := by decide +kernel
  have hbehind : decodeBehind 0xAB .lookupSwitch = InstructionForm.mk 0xAB false <$>
      (lookupSwitchHead >>= fun words ↦
        if words.2 < 0 then Decoder.fail .malformedSwitch
        else .lookupSwitch words.1 <$> Decoder.times words.2.toInt.toNat (do
          let key ← Decoder.i32
          let target ← Decoder.i32
          return (key, target))) := by
    simp [decodeBehind, decodeLookupSwitch, lookupSwitchHead]
  have hpair (row : Nat) : Takes code (do
      let key ← Decoder.i32
      let target ← Decoder.i32
      return (key, target)) (start + 8 + 8 * row) (start + 8 + 8 * row + 8)
      (Int32.ofInt (wordAt code (start + 8 + 8 * row)),
        Int32.ofInt (wordAt code (start + 8 + 8 * row + 4))) :=
    (Takes.i32 code _).bind ((Takes.i32 code _).map _) (by omega)
  have hdecode := decode_of_takes hopcode hlayout hbehind (takes_lookupSwitchHead hstart)
    fun _ ↦ (Takes.times hpair _).map _
  have hnegative : Int32.ofInt (wordAt code (start + 4)) < 0 ↔ wordAt code (start + 4) < 0 := by
    rw [Int32.lt_iff_toInt_lt, toInt_ofInt_wordAt, Int32.toInt_zero]
  rw [hdecode, lookupSwitchAt]
  simp only [toInt_ofInt_wordAt, hnegative]
  generalize wordAt code (start + 4) = count
  by_cases hrefused : count < 0
  · simp only [if_pos hrefused]
  · have hstop : (start : Int) + 8 + 8 * count = (start + 8 + 8 * count.toNat : Nat) := by omega
    rw [hstop]
    simp only [if_neg hrefused, Int.ofNat_lt, Int.toNat_sub]

end

/-! ### Tables that are reserved -/

/-- Reserves a table of so many rows, if the unread bytes are as many. -/
def reserve? (left count size : Nat) : Option Unit :=
  if count * size ≤ left then some () else none

/-- Reads so many rows of `size` bytes, if there are as many bytes, into a table that is reserved
for all of them at once. -/
def reservedRows {α : Type} (size : Nat) (row : Checked InstructionCause α) (count : Nat) :
    Checked InstructionCause (List α) := do
  let left ← Checked.remaining
  if left < saturatingMul64 count size then Checked.fail .truncated
  else do
    let _ ← ofValue (reserve? left count size)
    Checked.times row count

/-- Reads a table of branch offsets whose rows are read by `rows`, given their number. -/
def tableSwitchInto (rows : Nat → Checked InstructionCause (List Int32)) :
    Checked InstructionCause Operands := do
  checkedSkipPadding
  let default ← Checked.i32
  let low ← Checked.i32
  let high ← Checked.i32
  if high < low then Checked.fail .malformedSwitch
  else do
    let difference ← ofValue (signed64? (high.toInt - low.toInt))
    let count ← ofValue (signed64? (difference + 1))
    let offsets ← rows count.toNat
    return .tableSwitch default low high offsets

/-- Reads a table of keys and branch offsets whose rows are read by `rows`, given their number. -/
def lookupSwitchInto (rows : Nat → Checked InstructionCause (List (Int32 × Int32))) :
    Checked InstructionCause Operands := do
  checkedSkipPadding
  let default ← Checked.i32
  let count ← Checked.i32
  if count < 0 then Checked.fail .malformedSwitch
  else do
    let pairs ← rows count.toInt.toNat
    return .lookupSwitch default pairs

/-- Reads a key and a branch offset. -/
def checkedSwitchPair : Checked InstructionCause (Int32 × Int32) := do
  let key ← Checked.i32
  let target ← Checked.i32
  return (key, target)

theorem checkedTableSwitch_eq : checkedTableSwitch = tableSwitchInto (checkedRows 4 Checked.i32) :=
  rfl

theorem checkedLookupSwitch_eq :
    checkedLookupSwitch = lookupSwitchInto (checkedRows 8 checkedSwitchPair) :=
  rfl

/-- The readings do the same on every reader whose index is in its buffer. -/
def Alike {α : Type} (first second : Checked InstructionCause α) : Prop :=
  ∀ reader : Reader, reader.IsValid → first reader = second reader

namespace Alike

variable {α β : Type} {first second : Checked InstructionCause α}

theorem refl (first : Checked InstructionCause α) : Alike first first := fun _ _ ↦ rfl

/-- What follows a reading may differ where the reading does not lead. -/
theorem bind_right {reading : Checked InstructionCause β} {decoder : Decoder InstructionCause β}
    (hreading : Checked.Agrees reading decoder) {next next' : β → Checked InstructionCause α}
    (h : ∀ value, Alike (next value) (next' value)) :
    Alike (reading >>= next) (reading >>= next') := by
  intro reader hreader
  have hsame := hreading reader hreader
  rw [Checked.bind_apply, Checked.bind_apply]
  generalize reading reader = outcome at hsame ⊢
  generalize decoder reader.cursor = outcome' at hsame
  cases hsame with
  | ok alike follows => exact h _ _ (follows.isValid hreader)
  | error few => rfl

theorem bind_left (h : Alike first second) (next : α → Checked InstructionCause β) :
    Alike (first >>= next) (second >>= next) := by
  intro reader hreader
  rw [Checked.bind_apply, Checked.bind_apply, h reader hreader]

/-- The value of an operation that reads nothing is passed on. -/
theorem ofValue_bind (value : Option β) {next next' : β → Checked InstructionCause α}
    (h : ∀ found, Alike (next found) (next' found)) :
    Alike (ofValue value >>= next) (ofValue value >>= next') := by
  cases value with
  | none => exact refl _
  | some found => exact h found

theorem ite {condition : Prop} [Decidable condition] (yes : Checked InstructionCause α)
    (h : Alike first second) :
    Alike (if condition then yes else first) (if condition then yes else second) := by
  split
  · exact refl yes
  · exact h

/-- A table that is reserved is not larger than the unread bytes. -/
theorem reservedRows (size : Nat) (row : Checked InstructionCause α) (count : Nat) :
    Alike (reservedRows size row count) (checkedRows size row count) := by
  intro reader hreader
  have hremaining := reader.remaining_cursor
  have hstop := hreader.stop_lt
  rw [Instruction.reservedRows, checkedRows, Checked.bind_apply, Checked.bind_apply,
    Checked.remaining, hreader.remaining?_eq]
  simp only [Option.map_some]
  by_cases hshort : reader.cursor.remaining < saturatingMul64 count size
  · rw [if_pos hshort, if_pos hshort]
  · have hheld : count * size ≤ reader.cursor.remaining := by
      rw [saturatingMul64] at hshort
      omega
    rw [if_neg hshort, if_neg hshort, reserve?, if_pos hheld]
    rfl

theorem tableSwitchInto {rows rows' : Nat → Checked InstructionCause (List Int32)}
    (h : ∀ count, Alike (rows count) (rows' count)) :
    Alike (tableSwitchInto rows) (tableSwitchInto rows') :=
  bind_right agrees_checkedSkipPadding fun _ ↦ bind_right .i32 fun _ ↦ bind_right .i32 fun _ ↦
    bind_right .i32 fun _ ↦ ite _ (ofValue_bind _ fun _ ↦ ofValue_bind _ fun count ↦
      (h count.toNat).bind_left _)

theorem lookupSwitchInto {rows rows' : Nat → Checked InstructionCause (List (Int32 × Int32))}
    (h : ∀ count, Alike (rows count) (rows' count)) :
    Alike (lookupSwitchInto rows) (lookupSwitchInto rows') :=
  bind_right agrees_checkedSkipPadding fun _ ↦ bind_right .i32 fun _ ↦ bind_right .i32 fun count ↦
    ite _ ((h count.toInt.toNat).bind_left _)

end Alike

/-! ### Switches of a code -/

/-- Where there are bytes left, a stream yields what is decoded there. -/
theorem next?_fst_of_isEmpty {cursor : Cursor} (hempty : cursor.isEmpty = false) :
    (InstructionStream.mk cursor false).next?.1 = some (decode cursor).1 := by
  rw [InstructionStream.next?, Bool.false_or, hempty, if_neg Bool.false_ne_true]
  rcases decode cursor with ⟨fault | instruction, moved⟩ <;> rfl

/-- What is decoded where a switch stands is decided by integers of any size: whether the code holds
the words in front of the table, what they say, and whether it holds the table. No operation on
numbers of a fixed width differs from them, and no table is reserved that the code does not hold. -/
theorem switches_decided_exactly {code : List UInt8} (hcode : code.length < 2 ^ 32)
    {offset start : Nat} (hstart : IsLeast {place | 4 ∣ place ∧ offset + 1 ≤ place} start) :
    (code[offset]? = some 0xAA →
      (InstructionStream.mk ((Cursor.ofBytes code).advance offset) false).next?.1 =
          some (tableSwitchAt code offset start) ∧
        checkedAt? code offset = some (tableSwitchAt code offset start)) ∧
    (code[offset]? = some 0xAB →
      (InstructionStream.mk ((Cursor.ofBytes code).advance offset) false).next?.1 =
          some (lookupSwitchAt code offset start) ∧
        checkedAt? code offset = some (lookupSwitchAt code offset start)) ∧
    ∀ reader : Reader, reader.IsValid →
      tableSwitchInto (reservedRows 4 Checked.i32) reader = checkedTableSwitch reader ∧
      lookupSwitchInto (reservedRows 8 checkedSwitchPair) reader = checkedLookupSwitch reader := by
  have hitem {opcode : UInt8} (hopcode : code[offset]? = some opcode) :
      (InstructionStream.mk ((Cursor.ofBytes code).advance offset) false).next?.1 =
          some (decode ((Cursor.ofBytes code).advance offset)).1 ∧
        checkedAt? code offset = some (decode ((Cursor.ofBytes code).advance offset)).1 := by
    obtain ⟨hoffset, -⟩ := List.getElem?_eq_some_iff.mp hopcode
    refine ⟨next?_fst_of_isEmpty ?_, checkedAt?_eq hcode (Nat.le_of_lt hoffset)⟩
    exact List.isEmpty_eq_false_iff.mpr (List.drop_eq_nil_iff.not.mpr (Nat.not_le_of_lt hoffset))
  refine ⟨fun hopcode ↦ ?table, fun hopcode ↦ ?lookup, fun reader hreader ↦ ⟨?rows, ?pairs⟩⟩
  case table =>
    rw [← decode_eq_tableSwitchAt hopcode hstart]
    exact hitem hopcode
  case lookup =>
    rw [← decode_eq_lookupSwitchAt hopcode hstart]
    exact hitem hopcode
  case rows =>
    rw [checkedTableSwitch_eq]
    exact Alike.tableSwitchInto (Alike.reservedRows 4 _) reader hreader
  case pairs =>
    rw [checkedLookupSwitch_eq]
    exact Alike.lookupSwitchInto (Alike.reservedRows 8 _) reader hreader

/-- The bounds of a table switch are as far apart as they can be, and the code ends behind them. A
lookup switch has one pair. The count of another one is as large as it can be. -/
theorem switches_decided_exactly_extremes :
    checkedAt? [0x00, 0xAA, 0, 0, 0, 0, 0, 9, 0x80, 0, 0, 0, 0x7F, 0xFF, 0xFF, 0xFF] 1 =
        some (.error ⟨1, .truncated⟩) ∧
    checkedAt? [0xAB, 0, 0, 0, 0, 0, 0, 9, 0, 0, 0, 1, 0xFF, 0xFF, 0xFF, 0xFF, 0, 0, 0, 20] 0 =
        some (.ok ⟨⟨0xAB, false, .lookupSwitch 9 [(-1, 20)]⟩, 0, 20⟩) ∧
    lookupSwitchInto (reservedRows 8 checkedSwitchPair)
        (.ofBytes [0, 0, 0, 9, 0x7F, 0xFF, 0xFF, 0xFF]) =
      checkedLookupSwitch (.ofBytes [0, 0, 0, 9, 0x7F, 0xFF, 0xFF, 0xFF]) := by
  have hfour {place : Nat} (hpos : 0 < place) (hle : place ≤ 4) :
      IsLeast {stop | 4 ∣ stop ∧ place ≤ stop} 4 := by
    refine ⟨⟨Nat.dvd_refl 4, hle⟩, fun stop hstop ↦ ?_⟩
    obtain ⟨haligned, hplace⟩ := hstop
    omega
  refine ⟨((switches_decided_exactly (by decide) (hfour (by decide) (by decide))).1 rfl).2.trans ?_,
    ((switches_decided_exactly (by decide) (hfour (by decide) (by decide))).2.1 rfl).2.trans ?_,
    ((switches_decided_exactly (show ([] : List UInt8).length < 2 ^ 32 by decide)
      (hfour (Nat.succ_pos 0) (by decide))).2.2 _ (Reader.isValid_ofBytes (by decide))).2⟩
  · decide +kernel
  · decide +kernel

end Instruction

end MonitorAudit
