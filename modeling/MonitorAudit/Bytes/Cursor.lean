/-!
# Cursors over bytes

A `Cursor` is the unread part of a buffer together with the offset of its first byte, counted from
the start of the outermost buffer. Splitting a stretch off a cursor gives a second cursor whose
offsets count from the same origin, so a position means the same thing at every depth.

`splitAt?_eq_ok_iff` says when a stretch can be split off and what is split. `EndOfData` is the
one way in which it fails: it names the offset of the read and how many bytes were missing.
-/

set_option autoImplicit false

namespace MonitorAudit

/-- The unread bytes of a buffer and the offset of the first of them. -/
structure Cursor where
  /-- The bytes from the cursor to the end of its buffer. -/
  rest : List UInt8
  /-- The offset of the cursor in the outermost buffer. -/
  position : Nat
  deriving DecidableEq, Repr

/-- A read that asks for more bytes than are left. -/
structure EndOfData where
  /-- Where the read starts. -/
  offset : Nat
  /-- How many of its bytes are missing. -/
  wanted : Nat
  deriving DecidableEq, Repr

/-- The wording of a read past the end. -/
def EndOfData.message (failure : EndOfData) : String :=
  s!"unexpected end of data at offset {failure.offset} (wanted {failure.wanted} more bytes)"

namespace Cursor

/-- The cursor at the start of an outermost buffer. -/
def ofBytes (bytes : List UInt8) : Cursor := ⟨bytes, 0⟩

/-- The number of unread bytes. -/
def remaining (cursor : Cursor) : Nat := cursor.rest.length

/-- Whether every byte has been read. -/
def isEmpty (cursor : Cursor) : Bool := cursor.rest.isEmpty

/-- The cursor further on by a number of bytes. -/
def advance (cursor : Cursor) (count : Nat) : Cursor :=
  ⟨cursor.rest.drop count, cursor.position + count⟩

/-- The next `count` bytes and the cursor behind them, if there are that many. -/
def splitAt? (cursor : Cursor) (count : Nat) : Except EndOfData (List UInt8 × Cursor) :=
  let (taken, rest) := cursor.rest.splitAt count
  if taken.length = count then .ok (taken, ⟨rest, cursor.position + count⟩)
  else .error ⟨cursor.position, count - taken.length⟩

/-! ### Moving and splitting -/

@[simp] theorem advance_zero (cursor : Cursor) : cursor.advance 0 = cursor := by
  simp [advance]

@[simp] theorem advance_advance (cursor : Cursor) (first second : Nat) :
    (cursor.advance first).advance second = cursor.advance (first + second) := by
  simp [advance, Nat.add_assoc]

@[simp] theorem remaining_advance (cursor : Cursor) (count : Nat) :
    (cursor.advance count).remaining = cursor.remaining - count := by
  simp [advance, remaining]

/-- A stretch that is there is split off whole. -/
theorem splitAt?_of_le {cursor : Cursor} {count : Nat} (h : count ≤ cursor.remaining) :
    cursor.splitAt? count = .ok (cursor.rest.take count, cursor.advance count) := by
  simp only [remaining] at h
  simp [splitAt?, advance, List.splitAt_eq, Nat.min_eq_left h]

/-- A stretch that is not there is refused with the number of its missing bytes. -/
theorem splitAt?_of_lt {cursor : Cursor} {count : Nat} (h : cursor.remaining < count) :
    cursor.splitAt? count = .error ⟨cursor.position, count - cursor.remaining⟩ := by
  simp only [remaining] at h
  simp [splitAt?, remaining, List.splitAt_eq, Nat.min_eq_right (Nat.le_of_lt h), Nat.ne_of_lt h]

theorem splitAt?_eq_ok_iff {cursor next : Cursor} {count : Nat} {taken : List UInt8} :
    cursor.splitAt? count = .ok (taken, next) ↔
      count ≤ cursor.remaining ∧ taken = cursor.rest.take count ∧ next = cursor.advance count := by
  by_cases h : count ≤ cursor.remaining
  · rw [splitAt?_of_le h]
    simp [h, eq_comm]
  · rw [splitAt?_of_lt (Nat.lt_of_not_le h)]
    simp [h]

end Cursor

end MonitorAudit
