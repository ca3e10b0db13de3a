import MonitorAudit.Proofs.Bytes.Failure
import Mathlib.Data.Nat.Digits.Defs

/-!
# Reads that are done whole or not at all

A `Read` is one of the reads that a cursor offers, with the number of its bytes (`Read.width`) and
what it answers for them (`Read.Denotes`). A read is whole at a cursor if it answers for its bytes
and leaves the cursor behind them, or else leaves the cursor where it was and says how many bytes
are missing (`Read.IsWholeAt`).

Reads of one stretch of bytes are whole at every cursor (`Read.isWholeAt_of_map`). The 64-bit number
is two such reads, so between four and seven bytes it stops halfway, and nowhere else
(`reads_are_whole_unless_split`).
-/

set_option autoImplicit false

namespace MonitorAudit

/-! ### The number that bytes stand for -/

/-- The number with the bytes as its base-256 digits, the most significant one first. -/
def magnitude (bytes : List UInt8) : Nat := Nat.ofDigits 256 (bytes.reverse.map UInt8.toNat)

theorem magnitude_append (front back : List UInt8) :
    magnitude (front ++ back) = magnitude front * 256 ^ back.length + magnitude back := by
  unfold magnitude
  rw [List.reverse_append, List.map_append, Nat.ofDigits_append, List.length_map,
    List.length_reverse, Nat.add_comm, Nat.mul_comm]

theorem bigEndian_eq_magnitude (bytes : List UInt8) : bigEndian bytes = magnitude bytes := by
  induction bytes using List.reverseRecOn with
  | nil => rfl
  | append_singleton bytes byte ih =>
    have hbyte : magnitude [byte] = byte.toNat := by simp [magnitude]
    rw [bigEndian_append_singleton, magnitude_append, ih, hbyte, List.length_singleton,
      Nat.pow_one]

theorem magnitude_lt_of_length {bytes : List UInt8} {width : Nat} (h : bytes.length = width) :
    magnitude bytes < 256 ^ width := by
  rw [← bigEndian_eq_magnitude, ← h]
  exact bigEndian_lt bytes

/-! ### Reads -/

/-- The reads that a cursor offers. -/
inductive Read where
  | u8
  | i8
  | u16
  | i16
  | u32
  | i32
  | u64
  | take (count : Nat)
  | skip (count : Nat)
  | window (count : Nat)
  deriving DecidableEq, Repr

namespace Read

/-- What a read answers. -/
abbrev Value : Read → Type
  | u8 => UInt8
  | i8 => Int8
  | u16 => UInt16
  | i16 => Int16
  | u32 => UInt32
  | i32 => Int32
  | u64 => UInt64
  | take _ => List UInt8
  | skip _ => Unit
  | window _ => Cursor

/-- The decoder that does the read. -/
def decoder : (read : Read) → Decoder EndOfData read.Value
  | u8 => Decoder.u8
  | i8 => Decoder.i8
  | u16 => Decoder.u16
  | i16 => Decoder.i16
  | u32 => Decoder.u32
  | i32 => Decoder.i32
  | u64 => Decoder.u64
  | take count => Decoder.take count
  | skip count => Decoder.skip count
  | window count => Decoder.window count

/-- The number of bytes that are read. -/
def width : Read → Nat
  | u8 => 1
  | i8 => 1
  | u16 => 2
  | i16 => 2
  | u32 => 4
  | i32 => 4
  | u64 => 8
  | take count => count
  | skip count => count
  | window count => count

/-- The value is what the read answers for the bytes, which begin at the offset. A signed number is
the one in its range that differs from the magnitude by a multiple of the size of the range. -/
def Denotes : (read : Read) → List UInt8 → Nat → read.Value → Prop
  | u8, bytes, _, value => value.toNat = magnitude bytes
  | i8, bytes, _, value => value.toInt = Int.bmod (magnitude bytes) (2 ^ 8)
  | u16, bytes, _, value => value.toNat = magnitude bytes
  | i16, bytes, _, value => value.toInt = Int.bmod (magnitude bytes) (2 ^ 16)
  | u32, bytes, _, value => value.toNat = magnitude bytes
  | i32, bytes, _, value => value.toInt = Int.bmod (magnitude bytes) (2 ^ 32)
  | u64, bytes, _, value => value.toNat = magnitude bytes
  | take _, bytes, _, value => value = bytes
  | skip _, _, _, _ => True
  | window _, bytes, start, value => value = ⟨bytes, start⟩

/-- The read answers for its bytes and leaves the cursor behind them if they are all there, and
otherwise says how many are missing and leaves the cursor in place. -/
structure IsWholeAt (read : Read) (cursor : Cursor) : Prop where
  of_le : read.width ≤ cursor.remaining →
    ∃ value, read.Denotes (cursor.rest.take read.width) cursor.position value ∧
      read.decoder cursor = (.ok value, cursor.advance read.width)
  of_lt : cursor.remaining < read.width →
    read.decoder cursor = (.error ⟨cursor.position, read.width - cursor.remaining⟩, cursor)

/-! ### Reads of one stretch -/

theorem isWholeAt_take (count : Nat) (cursor : Cursor) : (take count).IsWholeAt cursor := by
  constructor
  · intro hle
    exact ⟨cursor.rest.take count, rfl, Decoder.take_eq_ok_iff.mpr ⟨hle, rfl, rfl⟩⟩
  · intro hlt
    exact Decoder.take_eq_error_iff.mpr ⟨hlt, rfl, rfl⟩

/-- A function of what a whole read answers is a whole read of the same bytes. -/
theorem IsWholeAt.map {read other : Read} {cursor : Cursor} (h : read.IsWholeAt cursor)
    (hwidth : read.width = other.width) (f : read.Value → other.Value)
    (hdecoder : other.decoder cursor = (f <$> read.decoder) cursor)
    (hvalue : ∀ bytes value, bytes.length = read.width →
      read.Denotes bytes cursor.position value → other.Denotes bytes cursor.position (f value)) :
    other.IsWholeAt cursor := by
  rw [Decoder.map_apply] at hdecoder
  constructor
  · intro hle
    rw [← hwidth] at hle ⊢
    obtain ⟨value, hbytes, hread⟩ := h.of_le hle
    rw [hread] at hdecoder
    exact ⟨f value, hvalue _ value (List.length_take_of_le hle) hbytes, hdecoder⟩
  · intro hlt
    rw [← hwidth] at hlt ⊢
    rw [h.of_lt hlt] at hdecoder
    exact hdecoder

/-- A function of bytes that are taken is a whole read of them. -/
theorem isWholeAt_of_take {read : Read} {cursor : Cursor} (f : List UInt8 → read.Value)
    (hdecoder : read.decoder cursor = (f <$> Decoder.take read.width) cursor)
    (hvalue : ∀ bytes, bytes.length = read.width → read.Denotes bytes cursor.position (f bytes)) :
    read.IsWholeAt cursor := by
  refine (isWholeAt_take read.width cursor).map rfl f hdecoder ?_
  rintro _ bytes hlength rfl
  exact hvalue bytes hlength

theorem isWholeAt_u8 (cursor : Cursor) : u8.IsWholeAt cursor := by
  refine isWholeAt_of_take (fun bytes ↦ UInt8.ofNat (bigEndian bytes)) rfl fun bytes hlength ↦ ?_
  show (UInt8.ofNat (bigEndian bytes)).toNat = magnitude bytes
  rw [bigEndian_eq_magnitude]
  exact UInt8.toNat_ofNat_of_lt' (magnitude_lt_of_length hlength)

theorem isWholeAt_u16 (cursor : Cursor) : u16.IsWholeAt cursor := by
  refine isWholeAt_of_take (fun bytes ↦ UInt16.ofNat (bigEndian bytes)) rfl fun bytes hlength ↦ ?_
  show (UInt16.ofNat (bigEndian bytes)).toNat = magnitude bytes
  rw [bigEndian_eq_magnitude]
  exact UInt16.toNat_ofNat_of_lt' (magnitude_lt_of_length hlength)

theorem isWholeAt_u32 (cursor : Cursor) : u32.IsWholeAt cursor := by
  refine isWholeAt_of_take (fun bytes ↦ UInt32.ofNat (bigEndian bytes)) rfl fun bytes hlength ↦ ?_
  show (UInt32.ofNat (bigEndian bytes)).toNat = magnitude bytes
  rw [bigEndian_eq_magnitude]
  exact UInt32.toNat_ofNat_of_lt' (magnitude_lt_of_length hlength)

/-- Every read but that of a 64-bit number is whole. -/
theorem isWholeAt_of_ne_u64 {read : Read} (h : read ≠ u64) (cursor : Cursor) :
    read.IsWholeAt cursor := by
  cases read with
  | u64 => exact absurd rfl h
  | u8 => exact isWholeAt_u8 cursor
  | u16 => exact isWholeAt_u16 cursor
  | u32 => exact isWholeAt_u32 cursor
  | take count => exact isWholeAt_take count cursor
  | i8 =>
    refine (isWholeAt_u8 cursor).map rfl UInt8.toInt8 rfl fun bytes value _ hvalue ↦ ?_
    show value.toInt8.toInt = Int.bmod (magnitude bytes) (2 ^ 8)
    rw [← show value.toNat = magnitude bytes from hvalue]
    exact BitVec.toInt_eq_toNat_bmod _
  | i16 =>
    refine (isWholeAt_u16 cursor).map rfl UInt16.toInt16 rfl fun bytes value _ hvalue ↦ ?_
    show value.toInt16.toInt = Int.bmod (magnitude bytes) (2 ^ 16)
    rw [← show value.toNat = magnitude bytes from hvalue]
    exact BitVec.toInt_eq_toNat_bmod _
  | i32 =>
    refine (isWholeAt_u32 cursor).map rfl UInt32.toInt32 rfl fun bytes value _ hvalue ↦ ?_
    show value.toInt32.toInt = Int.bmod (magnitude bytes) (2 ^ 32)
    rw [← show value.toNat = magnitude bytes from hvalue]
    exact BitVec.toInt_eq_toNat_bmod _
  | skip count =>
    exact isWholeAt_of_take (fun _ ↦ ()) rfl fun _ _ ↦ trivial
  | window count =>
    exact isWholeAt_of_take (fun bytes ↦ ⟨bytes, cursor.position⟩) rfl fun _ _ ↦ rfl

/-! ### The read of a 64-bit number -/

theorem u64_decoder_apply (cursor : Cursor) :
    u64.decoder cursor = (do
      let high ← u32.decoder
      let low ← u32.decoder
      return UInt64.ofNat (high.toNat * 0x100000000 + low.toNat)) cursor := rfl

/-- With bytes enough the read answers for both halves. -/
theorem isWholeAt_u64_of_le {cursor : Cursor} (h : 8 ≤ cursor.remaining) :
    u64.IsWholeAt cursor := by
  refine ⟨fun _ ↦ ?_, fun hlt ↦ absurd h (Nat.not_le.mpr hlt)⟩
  have hmore : 4 ≤ (cursor.advance 4).remaining := by
    rw [Cursor.remaining_advance]
    omega
  obtain ⟨high, hhigh, hfirst⟩ := (isWholeAt_u32 cursor).of_le (Nat.le_trans (by decide) h)
  obtain ⟨low, hlow, hsecond⟩ := (isWholeAt_u32 (cursor.advance 4)).of_le hmore
  refine ⟨UInt64.ofNat (high.toNat * 0x100000000 + low.toNat), ?_, ?_⟩
  · have hhigh : high.toNat = magnitude (cursor.rest.take 4) := hhigh
    have hlow : low.toNat = magnitude ((cursor.rest.drop 4).take 4) := hlow
    have hlength : ((cursor.rest.drop 4).take 4).length = 4 := List.length_take_of_le hmore
    have hbytes : cursor.rest.take (4 + 4) = cursor.rest.take 4 ++ (cursor.rest.drop 4).take 4 :=
      List.take_add
    have hfits : high.toNat * 256 ^ 4 + low.toNat < 2 ^ 64 := by
      have hhighLt := high.toNat_lt
      have hlowLt := low.toNat_lt
      omega
    show (UInt64.ofNat _).toNat = magnitude (cursor.rest.take (4 + 4))
    rw [hbytes, magnitude_append, ← hhigh, ← hlow, hlength]
    exact UInt64.toNat_ofNat_of_lt' hfits
  · rw [u64_decoder_apply, Decoder.bind_apply, hfirst]
    simp only [Decoder.bind_apply, hsecond, width, Cursor.advance_advance]
    rfl

/-- Where the high half is not there, only its bytes are said to be missing. -/
theorem u64_decoder_of_lt {cursor : Cursor} (h : cursor.remaining < 4) :
    u64.decoder cursor = (.error ⟨cursor.position, 4 - cursor.remaining⟩, cursor) := by
  rw [u64_decoder_apply, Decoder.bind_apply, (isWholeAt_u32 cursor).of_lt h]
  rfl

/-- Where only the high half is there it is taken, and the low half is missed behind it. -/
theorem u64_decoder_of_split {cursor : Cursor} (h : 4 ≤ cursor.remaining)
    (hlt : cursor.remaining < 8) : u64.decoder cursor =
      (.error ⟨cursor.position + 4, 8 - cursor.remaining⟩, cursor.advance 4) := by
  have hmissing : (cursor.advance 4).remaining < 4 := by
    rw [Cursor.remaining_advance]
    omega
  have hwanted : 4 - (cursor.advance 4).remaining = 8 - cursor.remaining := by
    rw [Cursor.remaining_advance]
    omega
  obtain ⟨high, -, hfirst⟩ := (isWholeAt_u32 cursor).of_le h
  have hsecond := (isWholeAt_u32 (cursor.advance 4)).of_lt hmissing
  rw [u64_decoder_apply, Decoder.bind_apply, hfirst]
  simp only [Decoder.bind_apply, width, hsecond, hwanted]
  rfl

/-- Without bytes enough the read of a 64-bit number is not whole. -/
theorem not_isWholeAt_u64 {cursor : Cursor} (h : cursor.remaining < 8) :
    ¬ u64.IsWholeAt cursor := by
  intro hwhole
  have hfault := hwhole.of_lt h
  by_cases hhigh : cursor.remaining < 4
  · rw [u64_decoder_of_lt hhigh] at hfault
    have hwanted := congrArg EndOfData.wanted (Except.error.inj (Prod.mk.inj hfault).1)
    simp only [width] at hwanted
    omega
  · rw [u64_decoder_of_split (Nat.le_of_not_lt hhigh) h] at hfault
    have hoffset := congrArg EndOfData.offset (Except.error.inj (Prod.mk.inj hfault).1)
    simp only at hoffset
    omega

end Read

/-- A read is whole at a cursor, unless it is of a 64-bit number for which the bytes do not suffice.
With bytes enough it answers for them and leaves the cursor behind them, and with too few it says
how many are missing and leaves the cursor in place. A 64-bit number is two reads. Where the high
half is not there, only bytes of that half are said to be missing; where it is there and the low
half is not, it is taken and the cursor is left behind it. -/
theorem reads_are_whole_unless_split (read : Read) (cursor : Cursor) :
    (read.IsWholeAt cursor ↔ ¬ (read = .u64 ∧ cursor.remaining < 8)) ∧
    (cursor.remaining < 4 → Read.u64.decoder cursor =
      (.error ⟨cursor.position, 4 - cursor.remaining⟩, cursor)) ∧
    (4 ≤ cursor.remaining → cursor.remaining < 8 → Read.u64.decoder cursor =
      (.error ⟨cursor.position + 4, 8 - cursor.remaining⟩, cursor.advance 4)) := by
  refine ⟨⟨?_, ?_⟩, Read.u64_decoder_of_lt, Read.u64_decoder_of_split⟩
  · rintro hwhole ⟨rfl, hshort⟩
    exact Read.not_isWholeAt_u64 hshort hwhole
  · intro hnot
    by_cases hread : read = .u64
    · subst hread
      exact Read.isWholeAt_u64_of_le (Nat.le_of_not_lt fun hshort ↦ hnot ⟨rfl, hshort⟩)
    · exact Read.isWholeAt_of_ne_u64 hread cursor

/-- Five bytes are left at the start of a buffer. The read of a 64-bit number takes four of them and
fails, and the read of a 32-bit number is whole. -/
theorem u64_splits_fiveBytes :
    Read.u64.decoder ⟨[1, 2, 3, 4, 5], 0⟩ = (.error ⟨4, 3⟩, ⟨[5], 4⟩) ∧
      ¬ Read.u64.IsWholeAt ⟨[1, 2, 3, 4, 5], 0⟩ ∧ Read.u32.IsWholeAt ⟨[1, 2, 3, 4, 5], 0⟩ := by
  obtain ⟨hwhole, -, hsplit⟩ := reads_are_whole_unless_split .u64 ⟨[1, 2, 3, 4, 5], 0⟩
  refine ⟨hsplit (by decide) (by decide), ?_, ?_⟩
  · rw [hwhole]
    decide
  · rw [(reads_are_whole_unless_split .u32 _).1]
    decide

end MonitorAudit
