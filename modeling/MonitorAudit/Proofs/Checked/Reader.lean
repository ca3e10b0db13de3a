import Mathlib.Algebra.Group.Nat.Defs
import MonitorAudit.Bytes.Decoder

/-!
# Reading with machine arithmetic

A `Reader` is a buffer with an index into it, as a machine keeps it. Its operations add and subtract
numbers of a fixed width, narrow them, and cut and index buffers, each of which may fail (`add?`,
`sub?`, `narrow?`, `slice?`). A `Checked` reading answers nothing if one of its operations fails,
and otherwise a value or a fault.

`Agrees checked decoder` says that on every reader whose index is in its buffer (`Reader.IsValid`)
no operation of the checked reading fails, that it ends as the decoder ends, and that a fault speaks
of fewer than `2 ^ 32` missing bytes. The notion is closed under sequencing (`Agrees.bind`),
repetition and rewording of faults, so it is proved for a reading from its parts.
-/

set_option autoImplicit false

namespace MonitorAudit

/-! ### Operations that may fail -/

/-- The sum of two numbers of so many bits, if it is one. -/
def add? (bits first second : Nat) : Option Nat :=
  if first + second < 2 ^ bits then some (first + second) else none

/-- The difference of two unsigned numbers, if it is one. -/
def sub? (first second : Nat) : Option Nat :=
  if second ≤ first then some (first - second) else none

/-- The number, if it is one of so many bits. -/
def narrow? (bits number : Nat) : Option Nat := if number < 2 ^ bits then some number else none

/-- The bytes from one index up to another, if both are in the buffer and in this order. -/
def slice? (bytes : List UInt8) (start stop : Nat) : Option (List UInt8) :=
  if start ≤ stop ∧ stop ≤ bytes.length then some ((bytes.drop start).take (stop - start))
  else none

theorem add?_of_lt {bits first second : Nat} (h : first + second < 2 ^ bits) :
    add? bits first second = some (first + second) := if_pos h

theorem sub?_of_le {first second : Nat} (h : second ≤ first) :
    sub? first second = some (first - second) := if_pos h

theorem narrow?_of_lt {bits number : Nat} (h : number < 2 ^ bits) :
    narrow? bits number = some number := if_pos h

theorem slice?_of_le {bytes : List UInt8} {start stop : Nat} (hstart : start ≤ stop)
    (hstop : stop ≤ bytes.length) :
    slice? bytes start stop = some ((bytes.drop start).take (stop - start)) :=
  if_pos ⟨hstart, hstop⟩

/-! ### Readers -/

/-- A buffer, the index of the next byte in it, and the offset of the buffer in the outermost
one. -/
structure Reader where
  data : List UInt8
  index : Nat
  base : Nat

namespace Reader

/-- The reader at the start of an outermost buffer. -/
def ofBytes (bytes : List UInt8) : Reader := ⟨bytes, 0, 0⟩

/-- The offset in the outermost buffer. -/
def position? (reader : Reader) : Option Nat := add? 64 reader.base reader.index

/-- The number of unread bytes. -/
def remaining? (reader : Reader) : Option Nat := sub? reader.data.length reader.index

/-- Whether there are no unread bytes. -/
def isEmpty? (reader : Reader) : Option Bool := do return (← reader.remaining?) = 0

/-- The unread bytes. -/
def rest? (reader : Reader) : Option (List UInt8) :=
  slice? reader.data reader.index reader.data.length

/-- The next bytes, if there are so many, and the reader behind them. -/
def take? (reader : Reader) (count : Nat) :
    Option (Except EndOfData (List UInt8) × Reader) := do
  let left ← reader.remaining?
  if left < count then
    let offset ← reader.position?
    let wanted ← sub? count left
    return (.error ⟨offset, wanted⟩, reader)
  else
    let stop ← add? 64 reader.index count
    let bytes ← slice? reader.data reader.index stop
    return (.ok bytes, { reader with index := stop })

/-- The index is in the buffer, which ends below an offset of `2 ^ 63`. -/
structure IsValid (reader : Reader) : Prop where
  index_le : reader.index ≤ reader.data.length
  stop_lt : reader.base + reader.data.length < 2 ^ 63

/-- The place of a reader as a cursor. -/
def cursor (reader : Reader) : Cursor :=
  ⟨reader.data.drop reader.index, reader.base + reader.index⟩

/-- The reader is in the buffer of another, at the same index or behind it. -/
structure Follows (later reader : Reader) : Prop where
  data_eq : later.data = reader.data
  base_eq : later.base = reader.base
  index_ge : reader.index ≤ later.index
  index_le : later.index ≤ reader.data.length

/-- The reader further on in its buffer. -/
def advance (reader : Reader) (count : Nat) : Reader :=
  { reader with index := reader.index + count }

theorem cursor_advance (reader : Reader) (count : Nat) :
    (reader.advance count).cursor = reader.cursor.advance count := by
  simp only [cursor, advance, Cursor.advance, List.drop_drop, Nat.add_assoc]

theorem isValid_ofBytes {bytes : List UInt8} (h : bytes.length < 2 ^ 63) :
    (ofBytes bytes).IsValid :=
  ⟨Nat.zero_le _, (Nat.zero_add bytes.length).symm ▸ h⟩

@[simp] theorem cursor_ofBytes (bytes : List UInt8) : (ofBytes bytes).cursor = .ofBytes bytes := rfl

section

variable {reader later last : Reader}

theorem IsValid.follows_self (h : reader.IsValid) : reader.Follows reader :=
  ⟨rfl, rfl, Nat.le_refl _, h.index_le⟩

theorem Follows.trans (hlast : last.Follows later) (hlater : later.Follows reader) :
    last.Follows reader where
  data_eq := hlast.data_eq.trans hlater.data_eq
  base_eq := hlast.base_eq.trans hlater.base_eq
  index_ge := Nat.le_trans hlater.index_ge hlast.index_ge
  index_le := hlater.data_eq ▸ hlast.index_le

theorem Follows.isValid (h : later.Follows reader) (hreader : reader.IsValid) : later.IsValid where
  index_le := h.data_eq ▸ h.index_le
  stop_lt := by
    rw [h.base_eq, h.data_eq]
    exact hreader.stop_lt

theorem Follows.position_le (h : later.Follows reader) :
    reader.cursor.position ≤ later.cursor.position := by
  have hindex := h.index_ge
  simp only [cursor, h.base_eq]
  omega

theorem remaining_cursor (reader : Reader) :
    reader.cursor.remaining = reader.data.length - reader.index :=
  List.length_drop

namespace IsValid

theorem position?_eq (h : reader.IsValid) : reader.position? = some reader.cursor.position := by
  have hindex := h.index_le
  have hstop := h.stop_lt
  exact add?_of_lt (by omega)

theorem remaining?_eq (h : reader.IsValid) : reader.remaining? = some reader.cursor.remaining := by
  rw [remaining?, sub?_of_le h.index_le, remaining_cursor]

theorem isEmpty?_eq (h : reader.IsValid) : reader.isEmpty? = some reader.cursor.isEmpty := by
  rw [isEmpty?, h.remaining?_eq, Cursor.isEmpty, Cursor.remaining]
  cases reader.cursor.rest <;> rfl

theorem rest?_eq (h : reader.IsValid) : reader.rest? = some reader.cursor.rest := by
  rw [rest?, slice?_of_le h.index_le (Nat.le_refl _)]
  exact congrArg some (List.take_of_length_le (Nat.le_of_eq List.length_drop))

theorem follows_advance (h : reader.IsValid) {count : Nat}
    (hcount : count ≤ reader.cursor.remaining) : (reader.advance count).Follows reader where
  data_eq := rfl
  base_eq := rfl
  index_ge := Nat.le_add_right _ _
  index_le := by
    have hindex := h.index_le
    rw [remaining_cursor] at hcount
    simp only [advance]
    omega

/-- A stretch of the bytes that are there is a buffer of its own. -/
theorem window (h : reader.IsValid) {count : Nat} (hcount : count ≤ reader.cursor.remaining) :
    Reader.IsValid ⟨reader.cursor.rest.take count, 0, reader.cursor.position⟩ := by
  have hindex := h.index_le
  have hstop := h.stop_lt
  refine ⟨Nat.zero_le _, ?_⟩
  rw [List.length_take_of_le hcount]
  rw [remaining_cursor] at hcount
  simp only [cursor]
  omega

/-- Bytes that are there are taken. -/
theorem take?_of_le (h : reader.IsValid) {count : Nat} (hcount : count ≤ reader.cursor.remaining) :
    reader.take? count =
      some (.ok (reader.cursor.rest.take count), reader.advance count) := by
  have hindex := h.index_le
  have hstop := h.stop_lt
  have hleft := remaining_cursor reader
  have hsum : reader.index + count < 2 ^ 64 := by omega
  rw [take?, h.remaining?_eq]
  simp only [Option.bind_eq_bind, Option.bind_some]
  rw [if_neg (Nat.not_lt_of_le hcount), add?_of_lt hsum]
  simp only [Option.bind_some]
  rw [slice?_of_le (Nat.le_add_right _ _) (by omega), Nat.add_sub_cancel_left]
  rfl

/-- Bytes that are not there are missing. -/
theorem take?_of_lt (h : reader.IsValid) {count : Nat} (hcount : reader.cursor.remaining < count) :
    reader.take? count =
      some (.error ⟨reader.cursor.position, count - reader.cursor.remaining⟩, reader) := by
  rw [take?, h.remaining?_eq]
  simp only [Option.bind_eq_bind, Option.bind_some]
  rw [if_pos hcount, h.position?_eq, sub?_of_le (Nat.le_of_lt hcount)]
  rfl

end IsValid

end

end Reader

/-! ### Checked readings -/

/-- A reading that answers nothing if one of its operations fails, and otherwise a value or a
fault and the reader behind what it read. -/
def Checked (ε α : Type) : Type := Reader → Option (Except ε α × Reader)

namespace Checked

variable {ε φ α β : Type}

protected def pure (value : α) : Checked ε α := fun reader ↦ some (.ok value, reader)

protected def bind (first : Checked ε α) (next : α → Checked ε β) : Checked ε β := fun reader ↦
  match first reader with
  | some (.ok value, later) => next value later
  | some (.error fault, later) => some (.error fault, later)
  | none => none

instance : Monad (Checked ε) where
  pure := Checked.pure
  bind := Checked.bind

theorem bind_apply (first : Checked ε α) (next : α → Checked ε β) (reader : Reader) :
    (first >>= next) reader =
      match first reader with
      | some (.ok value, later) => next value later
      | some (.error fault, later) => some (.error fault, later)
      | none => none := rfl

/-- Ends with a fault. -/
def fail (fault : ε) : Checked ε α := fun reader ↦ some (.error fault, reader)

/-- A place that is not meant to be reached. -/
def unreachable : Checked ε α := fun _ ↦ none

/-- The result of an operation that reads nothing, if it does not fail. -/
def ofResult (result : Option (Except ε α)) : Checked ε α := fun reader ↦
  result.map fun outcome ↦ (outcome, reader)

/-- The value of an operation that reads nothing, if it does not fail. -/
def ofValue (value : Option α) : Checked ε α := ofResult (value.map .ok)

/-- The same reading with its faults reworded. -/
def mapFault (f : ε → φ) (checked : Checked ε α) : Checked φ α := fun reader ↦
  (checked reader).map fun (outcome, later) ↦ (outcome.mapError f, later)

/-- How a reading ends, if none of its operations fails. -/
def run? (checked : Checked ε α) (reader : Reader) : Option (Except ε α) :=
  (checked reader).map (·.1)

/-- The offset of the reader. -/
def position : Checked ε Nat := fun reader ↦
  reader.position?.map fun offset ↦ (.ok offset, reader)

/-- The number of unread bytes. -/
def remaining : Checked ε Nat := fun reader ↦
  reader.remaining?.map fun count ↦ (.ok count, reader)

section Reading

variable [OfEndOfData ε]

/-- The next `count` bytes. -/
def take (count : Nat) : Checked ε (List UInt8) := fun reader ↦
  (reader.take? count).map fun (outcome, later) ↦ (outcome.mapError ofEndOfData, later)

/-- Passes over the next `count` bytes. -/
def skip (count : Nat) : Checked ε Unit := do
  let _ ← take count

/-- Bytes that are there are passed over. -/
theorem skip_apply {reader : Reader} (h : reader.IsValid) {count : Nat}
    (hcount : count ≤ reader.cursor.remaining) :
    (skip count : Checked ε Unit) reader = some (.ok (), reader.advance count) := by
  rw [skip, bind_apply, take, h.take?_of_le hcount]
  rfl

/-- Splits off the next `count` bytes as a reader of their own. -/
def window (count : Nat) : Checked ε Reader := do
  let base ← position
  let data ← take count
  return ⟨data, 0, base⟩

/-- The unread bytes, all of them. -/
def takeRest : Checked ε (List UInt8) := do
  take (← remaining)

def u8 : Checked ε UInt8 := do
  let bytes ← take 1
  let first ← ofValue bytes[0]?
  return UInt8.ofNat (bigEndian [first])

def u16 : Checked ε UInt16 := do
  let bytes ← take 2
  let first ← ofValue bytes[0]?
  let second ← ofValue bytes[1]?
  return UInt16.ofNat (bigEndian [first, second])

def u32 : Checked ε UInt32 := do
  let bytes ← take 4
  let first ← ofValue bytes[0]?
  let second ← ofValue bytes[1]?
  let third ← ofValue bytes[2]?
  let fourth ← ofValue bytes[3]?
  return UInt32.ofNat (bigEndian [first, second, third, fourth])

def u64 : Checked ε UInt64 := do
  let high ← u32
  let low ← u32
  return UInt64.ofNat (high.toNat * 0x100000000 + low.toNat)

def i8 : Checked ε Int8 := do return (← u8).toInt8

def i16 : Checked ε Int16 := do return (← u16).toInt16

def i32 : Checked ε Int32 := do return (← u32).toInt32

end Reading

/-- `count` values of a reading in a row. -/
def times (checked : Checked ε α) : Nat → Checked ε (List α)
  | 0 => pure []
  | count + 1 => do
    let value ← checked
    let values ← times checked count
    return value :: values

/-- A table whose 8-bit number of rows stands in front of it. -/
def counted8 [OfEndOfData ε] (row : Checked ε α) : Checked ε (List α) := do
  times row (← u8).toNat

/-- A table whose 16-bit number of rows stands in front of it. -/
def counted16 [OfEndOfData ε] (row : Checked ε α) : Checked ε (List α) := do
  times row (← u16).toNat

end Checked

/-! ### Agreement with a decoder -/

/-- The kinds of fault of which some say that bytes are missing. -/
class CountsMissing (ε : Type) where
  /-- How many bytes a fault says are missing. -/
  missing : ε → Nat

export CountsMissing (missing)

/-- A read past the end says how many bytes are missing, or does not say it. -/
class LawfulMissing (ε : Type) [OfEndOfData ε] [CountsMissing ε] : Prop where
  missing_le : ∀ failure : EndOfData, missing (ofEndOfData failure : ε) ≤ failure.wanted

export LawfulMissing (missing_le)

namespace Checked

variable {ε φ α β α' β' : Type} [CountsMissing ε] [CountsMissing φ]

/-- How a reading ends is how a decoder ends: with related values and behind the same bytes, or with
the same fault, which speaks of fewer than `2 ^ 32` missing bytes. -/
inductive SameResult (related : α → β → Prop) (reader : Reader) :
    Option (Except ε α × Reader) → Except ε β × Cursor → Prop
  | ok {value : α} {other : β} {later : Reader} (alike : related value other)
      (follows : later.Follows reader) :
      SameResult related reader (some (.ok value, later)) (.ok other, later.cursor)
  | error {fault : ε} {later : Reader} {left : Cursor} (few : missing fault < 2 ^ 32) :
      SameResult related reader (some (.error fault, later)) (.error fault, left)

/-- No operation of the reading fails, and it ends as the decoder does, with related values. -/
def AgreesUpTo (related : α → β → Prop) (checked : Checked ε α) (decoder : Decoder ε β) : Prop :=
  ∀ reader, reader.IsValid → SameResult related reader (checked reader) (decoder reader.cursor)

/-- No operation of the reading fails, and it ends as the decoder does. -/
abbrev Agrees (checked : Checked ε α) (decoder : Decoder ε α) : Prop :=
  AgreesUpTo (· = ·) checked decoder

theorem SameResult.of_follows {related : α → β → Prop} {reader later : Reader}
    {outcome : Option (Except ε α × Reader)} {outcome' : Except ε β × Cursor}
    (h : SameResult related later outcome outcome') (hlater : later.Follows reader) :
    SameResult related reader outcome outcome' := by
  cases h with
  | ok alike follows => exact .ok alike (follows.trans hlater)
  | error few => exact .error few

/-- Values may be related more loosely. -/
theorem AgreesUpTo.imp {related other : α → β → Prop} {checked : Checked ε α}
    {decoder : Decoder ε β} (h : AgreesUpTo related checked decoder)
    (hrelated : ∀ value value', related value value' → other value value') :
    AgreesUpTo other checked decoder := by
  intro reader hreader
  have hsame := h reader hreader
  generalize checked reader = outcome at hsame ⊢
  generalize decoder reader.cursor = outcome' at hsame ⊢
  cases hsame with
  | ok alike follows => exact .ok (hrelated _ _ alike) follows
  | error few => exact .error few

section Sequences

variable {related : α → α' → Prop} {relatedBehind : β → β' → Prop} {first : Checked ε α}
  {first' : Decoder ε α'} {next : α → Checked ε β} {next' : α' → Decoder ε β'}

/-- What follows readings that agree is given related values. -/
theorem AgreesUpTo.bind_related (hfirst : AgreesUpTo related first first')
    (hnext : ∀ value other, related value other →
      AgreesUpTo relatedBehind (next value) (next' other)) :
    AgreesUpTo relatedBehind (first >>= next) (first' >>= next') := by
  intro reader hreader
  have hsame := hfirst reader hreader
  rw [Decoder.bind_apply, bind_apply]
  generalize first reader = outcome at hsame ⊢
  generalize first' reader.cursor = outcome' at hsame ⊢
  cases hsame with
  | ok alike follows =>
    exact (hnext _ _ alike _ (follows.isValid hreader)).of_follows follows
  | error few => exact .error few

end Sequences

namespace AgreesUpTo

variable {first : Checked ε α} {first' : Decoder ε α} {next : α → Checked ε β}
  {next' : α → Decoder ε β} {related : β → β' → Prop}

theorem bind {next' : α → Decoder ε β'} (hfirst : Agrees first first')
    (hnext : ∀ value, AgreesUpTo related (next value) (next' value)) :
    AgreesUpTo related (first >>= next) (first' >>= next') :=
  hfirst.bind_related fun value _ heq ↦ heq ▸ hnext value

theorem pure (value : α) : Agrees (Pure.pure value : Checked ε α) (Pure.pure value) :=
  fun _ hreader ↦ .ok rfl hreader.follows_self

/-- A function of a value is read where the value is. -/
theorem map (h : Agrees first first') (f : α → β) :
    Agrees (first >>= fun value ↦ Pure.pure (f value))
      (first' >>= fun value ↦ Pure.pure (f value)) :=
  h.bind fun _ ↦ .pure _

theorem fail {fault : ε} (few : missing fault < 2 ^ 32) :
    Agrees (Checked.fail fault : Checked ε α) (Decoder.fail fault) :=
  fun _ _ ↦ .error few

/-- A fault that speaks of no missing bytes. -/
theorem refuse {fault : ε} (h : missing fault = 0) :
    Agrees (Checked.fail fault : Checked ε α) (Decoder.fail fault) :=
  .fail (h ▸ Nat.two_pow_pos 32)

/-- An operation that reads nothing and does not fail agrees with its result. -/
theorem ofResult {result : Except ε α}
    (few : ∀ fault, result = .error fault → missing fault < 2 ^ 32) :
    Agrees (Checked.ofResult (some result)) (Decoder.ofExcept result) := by
  intro reader hreader
  cases result with
  | ok value => exact .ok rfl hreader.follows_self
  | error fault => exact .error (few fault rfl)

/-- The value of an operation that does not fail is passed on. -/
theorem ofValue_bind {value : Option α} {found : α} (hvalue : value = some found)
    {decoder : Decoder ε β'} (hnext : AgreesUpTo related (next found) decoder) :
    AgreesUpTo related (ofValue value >>= next) decoder := by
  subst hvalue
  exact hnext

theorem mapFault (h : Agrees first first') {f : ε → φ}
    (hf : ∀ fault, missing (f fault) ≤ missing fault) :
    Agrees (first.mapFault f) (first'.mapFault f) := by
  intro reader hreader
  have hsame := h reader hreader
  rw [Checked.mapFault, Decoder.mapFault]
  generalize first reader = outcome at hsame ⊢
  generalize first' reader.cursor = outcome' at hsame ⊢
  cases hsame with
  | ok alike follows => exact .ok alike follows
  | error few => exact .error (Nat.lt_of_le_of_lt (hf _) few)

theorem ite {condition : Prop} [Decidable condition] {yes no : Checked ε α}
    {yes' no' : Decoder ε α} (hyes : condition → Agrees yes yes')
    (hno : ¬ condition → Agrees no no') :
    Agrees (if condition then yes else no) (if condition then yes' else no') := by
  by_cases hcondition : condition
  · rw [if_pos hcondition, if_pos hcondition]
    exact hyes hcondition
  · rw [if_neg hcondition, if_neg hcondition]
    exact hno hcondition

/-- Readings that agree have the decoder's result. -/
theorem run?_eq (h : Agrees first first') {reader : Reader} (hreader : reader.IsValid) :
    first.run? reader = some (first' reader.cursor).1 := by
  have hsame := h reader hreader
  rw [Checked.run?]
  generalize first reader = outcome at hsame ⊢
  generalize first' reader.cursor = outcome' at hsame ⊢
  cases hsame with
  | ok alike follows => exact alike ▸ rfl
  | error few => rfl

theorem position : Agrees (Checked.position : Checked ε Nat) Decoder.position := by
  intro reader hreader
  rw [Checked.position, hreader.position?_eq]
  exact .ok rfl hreader.follows_self

/-- The number of unread bytes can be looked at. -/
theorem remaining_bind {next : Nat → Checked ε β} {decoder : Decoder ε β'}
    (hnext : ∀ reader, reader.IsValid →
      SameResult related reader (next reader.cursor.remaining reader) (decoder reader.cursor)) :
    AgreesUpTo related (Checked.remaining >>= next) decoder := by
  intro reader hreader
  rw [bind_apply, Checked.remaining, hreader.remaining?_eq]
  exact hnext reader hreader

theorem times {row : Checked ε α} {row' : Decoder ε α} (h : Agrees row row') (count : Nat) :
    Agrees (Checked.times row count) (Decoder.times count row') := by
  induction count with
  | zero => exact .pure []
  | succ count ih =>
    rw [Decoder.times_succ]
    exact h.bind fun _ ↦ ih.bind fun _ ↦ .pure _

/-! ### Bytes and words -/

section Reading

variable [OfEndOfData ε] [LawfulMissing ε] {count : Nat}

/-- So many bytes are taken, if they are fewer than `2 ^ 32` or all of them are there. -/
theorem take_length (hcount : count < 2 ^ 32) :
    AgreesUpTo (fun bytes other ↦ bytes = other ∧ bytes.length = count)
      (Checked.take count : Checked ε (List UInt8)) (Decoder.take count) := by
  intro reader hreader
  rw [Checked.take, Decoder.take]
  by_cases hthere : count ≤ reader.cursor.remaining
  · rw [hreader.take?_of_le hthere, Cursor.splitAt?_of_le hthere, ← Reader.cursor_advance]
    exact .ok ⟨rfl, List.length_take_of_le hthere⟩ (hreader.follows_advance hthere)
  · have hthere := Nat.lt_of_not_le hthere
    rw [hreader.take?_of_lt hthere, Cursor.splitAt?_of_lt hthere]
    refine .error (Nat.lt_of_le_of_lt (missing_le _) ?_)
    simp only
    omega

theorem take (hcount : count < 2 ^ 32) :
    Agrees (Checked.take count : Checked ε (List UInt8)) (Decoder.take count) :=
  (take_length hcount).imp fun _ _ halike ↦ halike.1

theorem skip (hcount : count < 2 ^ 32) :
    Agrees (Checked.skip count : Checked ε Unit) (Decoder.skip count) :=
  (take hcount).bind fun _ ↦ .pure _

theorem u8 : Agrees (Checked.u8 : Checked ε UInt8) Decoder.u8 := by
  refine (take_length (by decide)).bind_related fun bytes _ ⟨heq, hlength⟩ ↦ heq ▸ ?_
  obtain ⟨first, rfl⟩ := List.length_eq_one_iff.mp hlength
  exact .ofValue_bind rfl (.pure _)

theorem u16 : Agrees (Checked.u16 : Checked ε UInt16) Decoder.u16 := by
  refine (take_length (by decide)).bind_related fun bytes _ ⟨heq, hlength⟩ ↦ heq ▸ ?_
  match bytes, hlength with
  | [first, second], _ => exact .ofValue_bind rfl (.ofValue_bind rfl (.pure _))

theorem u32 : Agrees (Checked.u32 : Checked ε UInt32) Decoder.u32 := by
  refine (take_length (by decide)).bind_related fun bytes _ ⟨heq, hlength⟩ ↦ heq ▸ ?_
  match bytes, hlength with
  | [first, second, third, fourth], _ =>
    exact .ofValue_bind rfl (.ofValue_bind rfl (.ofValue_bind rfl (.ofValue_bind rfl (.pure _))))

theorem u64 : Agrees (Checked.u64 : Checked ε UInt64) Decoder.u64 :=
  u32.bind fun _ ↦ u32.bind fun _ ↦ .pure _

theorem i8 : Agrees (Checked.i8 : Checked ε Int8) Decoder.i8 := u8.bind fun _ ↦ .pure _

theorem i16 : Agrees (Checked.i16 : Checked ε Int16) Decoder.i16 := u16.bind fun _ ↦ .pure _

theorem i32 : Agrees (Checked.i32 : Checked ε Int32) Decoder.i32 := u32.bind fun _ ↦ .pure _

theorem counted8 {row : Checked ε α} {row' : Decoder ε α} (h : Agrees row row') :
    Agrees (Checked.counted8 row) (Decoder.counted8 row') :=
  u8.bind fun count ↦ h.times count.toNat

theorem counted16 {row : Checked ε α} {row' : Decoder ε α} (h : Agrees row row') :
    Agrees (Checked.counted16 row) (Decoder.counted16 row') :=
  u16.bind fun count ↦ h.times count.toNat

omit [LawfulMissing ε] in
/-- All the bytes that are there can be taken. -/
theorem takeRest : Agrees (Checked.takeRest : Checked ε (List UInt8)) Decoder.takeRest := by
  intro reader hreader
  have hcursor : (⟨[], reader.cursor.position + reader.cursor.rest.length⟩ : Cursor) =
      (reader.advance reader.cursor.remaining).cursor := by
    rw [Reader.cursor_advance, Cursor.advance, Cursor.remaining, List.drop_length]
  rw [Checked.takeRest, bind_apply, Checked.remaining, hreader.remaining?_eq]
  simp only [Option.map_some, Checked.take]
  rw [hreader.take?_of_le (Nat.le_refl _), Decoder.takeRest, hcursor]
  exact .ok (List.take_of_length_le (Nat.le_refl _)) (hreader.follows_advance (Nat.le_refl _))

/-- What is split off is a reader with its index in its buffer. -/
theorem window (hcount : count < 2 ^ 32) :
    AgreesUpTo (fun payload other ↦ payload.IsValid ∧ payload.cursor = other)
      (Checked.window count : Checked ε Reader) (Decoder.window count) := by
  intro reader hreader
  rw [Checked.window, Decoder.window, bind_apply, Decoder.bind_apply, Checked.position,
    hreader.position?_eq, Decoder.position]
  simp only [Option.map_some]
  rw [bind_apply, Decoder.bind_apply, Checked.take, Decoder.take]
  by_cases hthere : count ≤ reader.cursor.remaining
  · rw [hreader.take?_of_le hthere, Cursor.splitAt?_of_le hthere, ← Reader.cursor_advance]
    exact .ok ⟨hreader.window hthere, rfl⟩ (hreader.follows_advance hthere)
  · have hthere := Nat.lt_of_not_le hthere
    rw [hreader.take?_of_lt hthere, Cursor.splitAt?_of_lt hthere]
    refine .error (Nat.lt_of_le_of_lt (missing_le _) ?_)
    simp only
    omega

end Reading

end AgreesUpTo

end Checked

end MonitorAudit
