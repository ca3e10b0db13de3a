import MonitorAudit.Bytes.Cursor

/-!
# Decoders

A `Decoder ε α` takes bytes from the front of a cursor and answers a value of `α` or a fault of
`ε`, together with the cursor it leaves behind, on success and on failure alike. Sequencing runs
the second decoder only where the first one succeeds.

The words of a class file are big-endian (`bigEndian`), the numbers of an archive little-endian
(`littleEndian`, `number`). A read that fails leaves the cursor where it was; the 64-bit word is two
32-bit reads, so its failure can lie between them. `times` repeats a decoder a given number of times
and `counted8`, `counted16` take that number from the bytes.

`OnlyAdvances` is the law that every decoder of this library keeps: it moves the cursor forward
over bytes that are there and never past them, so what it leaves is no longer than what it was
given (`Decoder.rest_length_le`). `Consumes` is the law of those that take at least one byte where
they succeed, which is why repeated decoding ends.
-/

set_option autoImplicit false

namespace MonitorAudit

/-- A function that takes a value from the front of a cursor, or fails, and moves the cursor. -/
def Decoder (ε α : Type) : Type := Cursor → Except ε α × Cursor

/-- The kinds of fault that can say that the data ended too soon. -/
class OfEndOfData (ε : Type) where
  /-- The fault for a read past the end. -/
  ofEndOfData : EndOfData → ε

export OfEndOfData (ofEndOfData)

instance : OfEndOfData EndOfData := ⟨id⟩

/-- The number whose base-256 digits are the bytes, the most significant one first. -/
def bigEndian (bytes : List UInt8) : Nat :=
  bytes.foldl (fun value byte ↦ value * 256 + byte.toNat) 0

/-- The number whose base-256 digits are the bytes, the least significant one first. -/
def littleEndian (bytes : List UInt8) : Nat :=
  bytes.foldr (fun byte value ↦ value * 256 + byte.toNat) 0

namespace Decoder

variable {ε φ α β : Type}

@[always_inline, inline]
protected def pure (value : α) : Decoder ε α := fun cursor ↦ (.ok value, cursor)

@[always_inline, inline]
protected def bind (first : Decoder ε α) (next : α → Decoder ε β) : Decoder ε β := fun cursor ↦
  match first cursor with
  | (.ok value, moved) => next value moved
  | (.error fault, moved) => (.error fault, moved)

instance : Monad (Decoder ε) where
  pure := Decoder.pure
  bind := Decoder.bind

@[simp] theorem pure_apply (value : α) (cursor : Cursor) :
    (pure value : Decoder ε α) cursor = (.ok value, cursor) := rfl

theorem bind_apply (first : Decoder ε α) (next : α → Decoder ε β) (cursor : Cursor) :
    (first >>= next) cursor =
      match first cursor with
      | (.ok value, moved) => next value moved
      | (.error fault, moved) => (.error fault, moved) := rfl

theorem map_apply (f : α → β) (decoder : Decoder ε α) (cursor : Cursor) :
    (f <$> decoder) cursor =
      match decoder cursor with
      | (.ok value, moved) => (.ok (f value), moved)
      | (.error fault, moved) => (.error fault, moved) := rfl

protected theorem id_map (decoder : Decoder ε α) : id <$> decoder = decoder := by
  funext cursor
  rw [map_apply]
  split <;> simp_all

protected theorem bind_assoc {γ : Type} (decoder : Decoder ε α) (f : α → Decoder ε β)
    (g : β → Decoder ε γ) : decoder >>= f >>= g = decoder >>= fun value ↦ f value >>= g := by
  funext cursor
  simp only [bind_apply]
  cases decoder cursor with
  | mk result moved => cases result <;> rfl

instance : LawfulMonad (Decoder ε) :=
  LawfulMonad.mk' (Decoder ε) Decoder.id_map (fun _ _ ↦ rfl) Decoder.bind_assoc

/-! ### Faults -/

/-- Fails and leaves the cursor in place. -/
def fail (fault : ε) : Decoder ε α := fun cursor ↦ (.error fault, cursor)

/-- A computation that reads nothing. -/
def ofExcept (result : Except ε α) : Decoder ε α := fun cursor ↦ (result, cursor)

/-- The same decoder with its faults reworded. -/
def mapFault (f : ε → φ) (decoder : Decoder ε α) : Decoder φ α := fun cursor ↦
  match decoder cursor with
  | (.ok value, moved) => (.ok value, moved)
  | (.error fault, moved) => (.error (f fault), moved)

/-! ### Reading -/

/-- The offset of the cursor. -/
def position : Decoder ε Nat := fun cursor ↦ (.ok cursor.position, cursor)

section Reading

variable [OfEndOfData ε]

/-- The next `count` bytes. -/
def take (count : Nat) : Decoder ε (List UInt8) := fun cursor ↦
  match cursor.splitAt? count with
  | .ok (taken, next) => (.ok taken, next)
  | .error failure => (.error (ofEndOfData failure), cursor)

/-- Passes over the next `count` bytes. -/
def skip (count : Nat) : Decoder ε Unit := do
  let _ ← take count

/-- Splits off the next `count` bytes as a cursor of their own, whose offsets keep their origin. -/
def window (count : Nat) : Decoder ε Cursor := do
  let start ← position
  let bytes ← take count
  return ⟨bytes, start⟩

/-- The unread bytes, all of them. -/
def takeRest : Decoder ε (List UInt8) := fun cursor ↦
  (.ok cursor.rest, ⟨[], cursor.position + cursor.rest.length⟩)

/-- An unsigned 8-bit number. -/
def u8 : Decoder ε UInt8 := do return UInt8.ofNat (bigEndian (← take 1))

/-- An unsigned 16-bit number. -/
def u16 : Decoder ε UInt16 := do return UInt16.ofNat (bigEndian (← take 2))

/-- An unsigned 32-bit number. -/
def u32 : Decoder ε UInt32 := do return UInt32.ofNat (bigEndian (← take 4))

/-- An unsigned 64-bit number, read as its high and then its low half. -/
def u64 : Decoder ε UInt64 := do
  let high ← u32
  let low ← u32
  return UInt64.ofNat (high.toNat * 0x100000000 + low.toNat)

/-- The number in the next bytes, the least significant one first. -/
def number (count : Nat) : Decoder ε Nat := do return littleEndian (← take count)

/-- A signed 8-bit number in two's complement. -/
def i8 : Decoder ε Int8 := do return (← u8).toInt8

/-- A signed 16-bit number in two's complement. -/
def i16 : Decoder ε Int16 := do return (← u16).toInt16

/-- A signed 32-bit number in two's complement. -/
def i32 : Decoder ε Int32 := do return (← u32).toInt32

end Reading

/-! ### Repetition -/

/-- `count` values of a decoder in a row, behind those already read, which come last first. -/
def timesOnto (decoder : Decoder ε α) : Nat → List α → Decoder ε (List α)
  | 0, values => pure values.reverse
  | count + 1, values => do
    let value ← decoder
    timesOnto decoder count (value :: values)

/-- `count` values of a decoder in a row. -/
def times (count : Nat) (decoder : Decoder ε α) : Decoder ε (List α) :=
  timesOnto decoder count []

theorem timesOnto_eq (decoder : Decoder ε α) (count : Nat) (values : List α) :
    timesOnto decoder count values = (values.reverse ++ ·) <$> times count decoder := by
  induction count generalizing values with
  | zero => simp [times, timesOnto]
  | succ count ih =>
    simp only [times, timesOnto, map_bind]
    congr 1
    funext value
    rw [ih (value :: values), ih [value]]
    simp

@[simp] theorem times_zero (decoder : Decoder ε α) : times 0 decoder = pure [] := rfl

theorem times_succ (count : Nat) (decoder : Decoder ε α) :
    times (count + 1) decoder = (do
      let value ← decoder
      let values ← times count decoder
      return value :: values) := by
  simp only [times, timesOnto]
  congr 1
  funext value
  rw [timesOnto_eq, map_eq_pure_bind]
  rfl

/-- A table whose 8-bit number of rows stands in front of it. -/
def counted8 [OfEndOfData ε] (row : Decoder ε α) : Decoder ε (List α) := do
  times (← u8).toNat row

/-- A table whose 16-bit number of rows stands in front of it. -/
def counted16 [OfEndOfData ε] (row : Decoder ε α) : Decoder ε (List α) := do
  times (← u16).toNat row

/-! ### The cursor only advances -/

/-- The decoder moves a cursor forward over bytes that are there, whether or not it succeeds. -/
def OnlyAdvances (decoder : Decoder ε α) : Prop :=
  ∀ cursor : Cursor, ∃ count, count ≤ cursor.remaining ∧ (decoder cursor).2 = cursor.advance count

theorem OnlyAdvances.pure (value : α) : OnlyAdvances (Pure.pure value : Decoder ε α) :=
  fun _ ↦ ⟨0, by simp⟩

theorem OnlyAdvances.fail (fault : ε) : OnlyAdvances (Decoder.fail fault : Decoder ε α) :=
  fun _ ↦ ⟨0, by simp [Decoder.fail]⟩

theorem OnlyAdvances.ofExcept (result : Except ε α) :
    OnlyAdvances (Decoder.ofExcept result : Decoder ε α) :=
  fun _ ↦ ⟨0, by simp [Decoder.ofExcept]⟩

theorem OnlyAdvances.position : OnlyAdvances (Decoder.position : Decoder ε Nat) :=
  fun _ ↦ ⟨0, by simp [Decoder.position]⟩

theorem OnlyAdvances.bind {first : Decoder ε α} {next : α → Decoder ε β}
    (hfirst : OnlyAdvances first) (hnext : ∀ value, OnlyAdvances (next value)) :
    OnlyAdvances (first >>= next) := by
  intro cursor
  obtain ⟨count, hcount, hmoved⟩ := hfirst cursor
  rw [bind_apply]
  cases hresult : first cursor with
  | mk result moved =>
    rw [hresult] at hmoved
    cases result with
    | error fault => exact ⟨count, hcount, hmoved⟩
    | ok value =>
      obtain ⟨more, hmore, hlast⟩ := hnext value moved
      simp only at hmoved hlast ⊢
      subst hmoved
      rw [Cursor.remaining_advance] at hmore
      exact ⟨count + more, by omega, by rw [hlast, Cursor.advance_advance]⟩

theorem OnlyAdvances.map {decoder : Decoder ε α} (h : OnlyAdvances decoder) (f : α → β) :
    OnlyAdvances (f <$> decoder) :=
  h.bind fun _ ↦ .pure _

theorem OnlyAdvances.mapFault {decoder : Decoder ε α} (h : OnlyAdvances decoder) (f : ε → φ) :
    OnlyAdvances (decoder.mapFault f) := by
  intro cursor
  obtain ⟨count, hcount, hmoved⟩ := h cursor
  refine ⟨count, hcount, ?_⟩
  rw [← hmoved]
  unfold Decoder.mapFault
  split <;> simp_all

theorem OnlyAdvances.take [OfEndOfData ε] (count : Nat) :
    OnlyAdvances (Decoder.take count : Decoder ε (List UInt8)) := by
  intro cursor
  by_cases h : count ≤ cursor.remaining
  · exact ⟨count, h, by simp [Decoder.take, Cursor.splitAt?_of_le h]⟩
  · exact ⟨0, by simp [Decoder.take, Cursor.splitAt?_of_lt (Nat.lt_of_not_le h)]⟩

theorem OnlyAdvances.skip [OfEndOfData ε] (count : Nat) :
    OnlyAdvances (Decoder.skip count : Decoder ε Unit) :=
  (OnlyAdvances.take count).bind fun _ ↦ .pure _

theorem OnlyAdvances.u8 [OfEndOfData ε] : OnlyAdvances (Decoder.u8 : Decoder ε UInt8) :=
  (OnlyAdvances.take 1).bind fun _ ↦ .pure _

theorem OnlyAdvances.u16 [OfEndOfData ε] : OnlyAdvances (Decoder.u16 : Decoder ε UInt16) :=
  (OnlyAdvances.take 2).bind fun _ ↦ .pure _

theorem OnlyAdvances.u32 [OfEndOfData ε] : OnlyAdvances (Decoder.u32 : Decoder ε UInt32) :=
  (OnlyAdvances.take 4).bind fun _ ↦ .pure _

theorem OnlyAdvances.i8 [OfEndOfData ε] : OnlyAdvances (Decoder.i8 : Decoder ε Int8) :=
  OnlyAdvances.u8.bind fun _ ↦ .pure _

theorem OnlyAdvances.i16 [OfEndOfData ε] : OnlyAdvances (Decoder.i16 : Decoder ε Int16) :=
  OnlyAdvances.u16.bind fun _ ↦ .pure _

theorem OnlyAdvances.i32 [OfEndOfData ε] : OnlyAdvances (Decoder.i32 : Decoder ε Int32) :=
  OnlyAdvances.u32.bind fun _ ↦ .pure _

theorem OnlyAdvances.times {decoder : Decoder ε α} (h : OnlyAdvances decoder) (count : Nat) :
    OnlyAdvances (Decoder.times count decoder) := by
  induction count with
  | zero => exact .pure _
  | succ count ih =>
    rw [times_succ]
    exact h.bind fun _ ↦ ih.bind fun _ ↦ .pure _

/-- Where the decoder succeeds, it takes at least one byte. -/
def Consumes (decoder : Decoder ε α) : Prop :=
  ∀ cursor value moved, decoder cursor = (.ok value, moved) →
    moved.rest.length < cursor.rest.length

/-- What a decoder leaves is no longer than what it was given. -/
theorem rest_length_le {decoder : Decoder ε α} (h : OnlyAdvances decoder) (cursor : Cursor) :
    (decoder cursor).2.rest.length ≤ cursor.rest.length := by
  obtain ⟨count, _, hmoved⟩ := h cursor
  rw [hmoved]
  simp [Cursor.advance]

theorem Consumes.bind {first : Decoder ε α} {next : α → Decoder ε β} (hfirst : Consumes first)
    (hnext : ∀ value, OnlyAdvances (next value)) : Consumes (first >>= next) := by
  intro cursor value moved h
  rw [bind_apply] at h
  split at h
  · rename_i middle between hbetween
    have hlater := rest_length_le (hnext middle) between
    rw [h] at hlater
    have hearlier := hfirst cursor middle between hbetween
    simp only at hlater
    omega
  · simp at h

theorem Consumes.bind_right {first : Decoder ε α} {next : α → Decoder ε β}
    (hfirst : OnlyAdvances first) (hnext : ∀ value, Consumes (next value)) :
    Consumes (first >>= next) := by
  intro cursor value moved h
  rw [bind_apply] at h
  split at h
  · rename_i middle between hbetween
    have hearlier := rest_length_le hfirst cursor
    rw [hbetween] at hearlier
    have hlater := hnext middle between value moved h
    simp only at hearlier
    omega
  · simp at h

theorem Consumes.mapFault {decoder : Decoder ε α} (h : Consumes decoder) (f : ε → φ) :
    Consumes (decoder.mapFault f) := by
  intro cursor value moved hresult
  unfold Decoder.mapFault at hresult
  split at hresult
  · rename_i found between hfound
    obtain ⟨rfl, rfl⟩ : found = value ∧ between = moved := by simpa using hresult
    exact h cursor found between hfound
  · simp at hresult

theorem Consumes.take [OfEndOfData ε] {count : Nat} (hcount : 0 < count) :
    Consumes (Decoder.take count : Decoder ε (List UInt8)) := by
  intro cursor value moved h
  by_cases hle : count ≤ cursor.remaining
  · simp only [Decoder.take, Cursor.splitAt?_of_le hle] at h
    obtain ⟨-, rfl⟩ : _ ∧ cursor.advance count = moved := by simpa using h
    simp only [Cursor.remaining] at hle
    simp only [Cursor.advance, List.length_drop]
    omega
  · simp [Decoder.take, Cursor.splitAt?_of_lt (Nat.lt_of_not_le hle)] at h

theorem Consumes.u8 [OfEndOfData ε] : Consumes (Decoder.u8 : Decoder ε UInt8) :=
  (Consumes.take (by decide)).bind fun _ ↦ .pure _

end Decoder

end MonitorAudit
