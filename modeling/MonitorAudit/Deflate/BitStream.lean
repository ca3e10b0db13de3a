/-!
# Bit streams

A compressed stream is read bit by bit, the least significant bit of each byte first. A `BitReader`
takes bits from the front of a `BitStream` or fails. `Shrinks` says how many bits a reader takes at
least where it succeeds, which is why reading to the end of a stream ends.
-/

set_option autoImplicit false

namespace MonitorAudit.Deflate

/-- Why a stream does not decompress. -/
inductive Fault where
  /-- The bits are no compressed data. -/
  | corrupt
  /-- The bits end before the data does. -/
  | incomplete
  deriving DecidableEq, Repr

def Fault.message : Fault → String
  | corrupt => "corrupt deflate stream"
  | incomplete => "incomplete deflate stream"

/-- The bits that are not yet read: those left of the current byte, and further bytes. -/
structure BitStream where
  current : List Bool
  bytes : List UInt8
  deriving DecidableEq, Repr

/-- The bits of a byte, the least significant one first. -/
def bitsOf (byte : UInt8) : List Bool := (List.range 8).map byte.toNat.testBit

namespace BitStream

/-- The number of bits that are not yet read. -/
def remaining (stream : BitStream) : Nat := stream.current.length + 8 * stream.bytes.length

/-- The next bit and the stream behind it. -/
def next? : BitStream → Option (Bool × BitStream)
  | ⟨bit :: bits, bytes⟩ => some (bit, ⟨bits, bytes⟩)
  | ⟨[], byte :: bytes⟩ => some (byte.toNat.testBit 0, ⟨(bitsOf byte).tail, bytes⟩)
  | ⟨[], []⟩ => none

theorem remaining_of_next? {stream rest : BitStream} {bit : Bool}
    (h : stream.next? = some (bit, rest)) : rest.remaining + 1 = stream.remaining := by
  match stream with
  | ⟨first :: bits, bytes⟩ =>
    obtain ⟨-, rfl⟩ : first = bit ∧ ⟨bits, bytes⟩ = rest := by simpa [next?] using h
    simp only [remaining, List.length_cons]
    omega
  | ⟨[], byte :: bytes⟩ =>
    obtain ⟨-, rfl⟩ : _ ∧ ⟨(bitsOf byte).tail, bytes⟩ = rest := by simpa [next?] using h
    simp only [remaining, bitsOf, List.length_tail, List.length_map, List.length_range,
      List.length_cons, List.length_nil]
    omega
  | ⟨[], []⟩ => simp [next?] at h

end BitStream

/-- A function that takes a value from the front of a bit stream, or fails. -/
abbrev BitReader (α : Type) : Type := StateT BitStream (Except Fault) α

/-- The next bit. -/
def readBit : BitReader Bool := fun stream ↦
  match stream.next? with
  | some (bit, rest) => .ok (bit, rest)
  | none => .error .incomplete

/-- The number that the next bits write, the least significant one first. -/
def readBits : Nat → BitReader Nat
  | 0 => pure 0
  | count + 1 => do
    let bit ← readBit
    let higher ← readBits count
    return bit.toNat + 2 * higher

/-- The next bytes, from the start of a byte on. -/
def readBytes (count : Nat) : BitReader (List UInt8) := fun stream ↦
  let (taken, rest) := stream.bytes.splitAt count
  if taken.length = count then .ok (taken, ⟨[], rest⟩) else .error .incomplete

/-! ### Readers take bits -/

/-- Where the reader succeeds, it takes at least `count` bits. -/
def Shrinks {α : Type} (count : Nat) (reader : BitReader α) : Prop :=
  ∀ stream value rest, reader stream = .ok (value, rest) →
    rest.remaining + count ≤ stream.remaining

namespace Shrinks

variable {α β : Type}

theorem weaken {first second : Nat} {reader : BitReader α} (h : Shrinks first reader)
    (hle : second ≤ first) : Shrinks second reader := by
  intro stream value rest hresult
  have := h stream value rest hresult
  omega

theorem pure (value : α) : Shrinks 0 (Pure.pure value : BitReader α) := by
  intro stream found rest h
  have hsame : Except.ok (value, stream) = Except.ok (found, rest) := h
  obtain ⟨-, rfl⟩ : value = found ∧ stream = rest := by simpa using hsame
  omega

theorem throw (count : Nat) (fault : Fault) :
    Shrinks count (MonadExcept.throw fault : BitReader α) := by
  intro stream found rest h
  cases h

theorem bind {first second : Nat} {reader : BitReader α} {next : α → BitReader β}
    (hreader : Shrinks first reader) (hnext : ∀ value, Shrinks second (next value)) :
    Shrinks (first + second) (reader >>= next) := by
  intro stream value rest h
  cases hresult : reader stream with
  | error fault => simp [Bind.bind, StateT.bind, Except.bind, hresult] at h
  | ok pair =>
    obtain ⟨middle, between⟩ := pair
    have hlater : next middle between = .ok (value, rest) := by
      simpa [Bind.bind, StateT.bind, Except.bind, hresult] using h
    have := hreader stream middle between hresult
    have := hnext middle between value rest hlater
    omega

/-- A reader in front of others adds to what they take. -/
theorem bind_left {count : Nat} {reader : BitReader α} {next : α → BitReader β}
    (hreader : Shrinks count reader) (hnext : ∀ value, Shrinks 0 (next value)) :
    Shrinks count (reader >>= next) := hreader.bind hnext

theorem bind_right {count : Nat} {reader : BitReader α} {next : α → BitReader β}
    (hreader : Shrinks 0 reader) (hnext : ∀ value, Shrinks count (next value)) :
    Shrinks count (reader >>= next) := (hreader.bind hnext).weaken (by omega)

theorem readBit : Shrinks 1 readBit := by
  intro stream value rest h
  unfold Deflate.readBit at h
  split at h
  · rename_i bit behind hnext
    obtain ⟨-, rfl⟩ : bit = value ∧ behind = rest := by simpa using h
    have := BitStream.remaining_of_next? hnext
    omega
  · cases h

theorem readBits (count : Nat) : Shrinks 0 (readBits count) := by
  induction count with
  | zero => exact .pure _
  | succ count ih =>
    exact (Shrinks.readBit.weaken (Nat.zero_le _)).bind_left fun _ ↦ ih.bind_left fun _ ↦ .pure _

theorem readBytes (count : Nat) : Shrinks 0 (readBytes count) := by
  intro stream value rest h
  simp only [Deflate.readBytes, List.splitAt_eq] at h
  split at h
  · obtain ⟨-, rfl⟩ : _ ∧ _ = rest := by simpa using h
    simp only [BitStream.remaining, List.length_nil, List.length_drop]
    omega
  · cases h

end Shrinks

end MonitorAudit.Deflate
