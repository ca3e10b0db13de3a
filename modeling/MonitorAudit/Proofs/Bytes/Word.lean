import Mathlib.Algebra.Group.Nat.Defs
import Mathlib.Data.List.Induction
import MonitorAudit.Bytes.Decoder

/-!
# Words as bytes

The number that bytes stand for (`bigEndian`) has a converse: `bigEndianBytes width value` is the
number `value` in `width` base-256 digits. `bigEndian_bigEndianBytes` and `bigEndianBytes_bigEndian`
say that each undoes the other, up to the digits that do not fit.

`word16`, `word32` and `word64` are the bytes of an unsigned word, and the definitions named
`signed…` those of a number in two's complement. The lemmas named `eq_word…` say that bytes of the
right number are the word they are read as, and `ofNat_bigEndian_word…` that the bytes of a word are
read as it. A 64-bit word is its two halves one behind the other (`word64_eq_iff`).
-/

set_option autoImplicit false

namespace MonitorAudit

/-- The last `width` base-256 digits of a number, the most significant one first. -/
def bigEndianBytes : Nat → Nat → List UInt8
  | 0, _ => []
  | width + 1, value => bigEndianBytes width (value / 256) ++ [UInt8.ofNat value]

/-- The bytes of an unsigned 16-bit number. -/
def word16 (value : UInt16) : List UInt8 := bigEndianBytes 2 value.toNat

/-- The bytes of an unsigned 32-bit number. -/
def word32 (value : UInt32) : List UInt8 := bigEndianBytes 4 value.toNat

/-- The bytes of an unsigned 64-bit number. -/
def word64 (value : UInt64) : List UInt8 := bigEndianBytes 8 value.toNat

/-- The byte of a signed 8-bit number. -/
def signed8 (value : Int8) : UInt8 := value.toUInt8

/-- The bytes of a signed 16-bit number. -/
def signed16 (value : Int16) : List UInt8 := word16 value.toUInt16

/-- The bytes of a signed 32-bit number. -/
def signed32 (value : Int32) : List UInt8 := word32 value.toUInt32

/-- The bytes of a signed 64-bit number. -/
def signed64 (value : Int64) : List UInt8 := word64 value.toUInt64

/-! ### Digits and the number they stand for -/

@[simp] theorem length_bigEndianBytes (width value : Nat) :
    (bigEndianBytes width value).length = width := by
  induction width generalizing value with
  | zero => rfl
  | succ width ih => simp [bigEndianBytes, ih]

/-- A digit behind others counts once, and each of the others 256 times more than before. -/
theorem bigEndian_append_singleton (bytes : List UInt8) (byte : UInt8) :
    bigEndian (bytes ++ [byte]) = bigEndian bytes * 256 + byte.toNat := by
  simp [bigEndian]

/-- Bytes stand for a number that has no more digits than there are bytes. -/
theorem bigEndian_lt (bytes : List UInt8) : bigEndian bytes < 256 ^ bytes.length := by
  induction bytes using List.reverseRecOn with
  | nil => simp [bigEndian]
  | append_singleton bytes byte ih =>
    have hbyte : byte.toNat < 256 := byte.toNat_lt
    rw [bigEndian_append_singleton, List.length_append, List.length_singleton, Nat.pow_succ]
    omega

/-- The digits of a number stand for it, as far as they go. -/
theorem bigEndian_bigEndianBytes (width value : Nat) :
    bigEndian (bigEndianBytes width value) = value % 256 ^ width := by
  induction width generalizing value with
  | zero => simp [bigEndianBytes, bigEndian, Nat.mod_one]
  | succ width ih =>
    have hdigit : (UInt8.ofNat value).toNat = value % 256 := UInt8.toNat_ofNat'
    rw [bigEndianBytes, bigEndian_append_singleton, ih, hdigit, Nat.pow_succ,
      Nat.mul_comm (256 ^ width) 256, Nat.mod_mul]
    omega

/-- Bytes are the digits of the number that they stand for. -/
theorem bigEndianBytes_bigEndian (bytes : List UInt8) :
    bigEndianBytes bytes.length (bigEndian bytes) = bytes := by
  induction bytes using List.reverseRecOn with
  | nil => rfl
  | append_singleton bytes byte ih =>
    have hbyte : byte.toNat < 256 := byte.toNat_lt
    have hquotient : (bigEndian bytes * 256 + byte.toNat) / 256 = bigEndian bytes := by omega
    have hdigit : UInt8.ofNat (bigEndian bytes * 256 + byte.toNat) = byte := by
      apply UInt8.toNat_inj.mp
      rw [UInt8.toNat_ofNat']
      omega
    rw [bigEndian_append_singleton, List.length_append, List.length_singleton, bigEndianBytes,
      hquotient, ih, hdigit]

/-- The digits of a number are its high and its low ones. -/
theorem bigEndianBytes_add (high low value : Nat) :
    bigEndianBytes (high + low) value =
      bigEndianBytes high (value / 256 ^ low) ++ bigEndianBytes low value := by
  induction low generalizing value with
  | zero => simp [bigEndianBytes]
  | succ low ih =>
    have hquotient : value / 256 / 256 ^ low = value / 256 ^ (low + 1) := by
      rw [Nat.div_div_eq_div_mul, Nat.pow_succ, Nat.mul_comm]
    rw [← Nat.add_assoc, bigEndianBytes, ih, hquotient, bigEndianBytes, List.append_assoc]

/-- Digits that do not fit are left out. -/
theorem bigEndianBytes_mod (width value : Nat) :
    bigEndianBytes width (value % 256 ^ width) = bigEndianBytes width value := by
  have hdigits := bigEndianBytes_bigEndian (bigEndianBytes width value)
  rwa [length_bigEndianBytes, bigEndian_bigEndianBytes] at hdigits

/-! ### Words -/

@[simp] theorem length_word16 (value : UInt16) : (word16 value).length = 2 :=
  length_bigEndianBytes 2 _

@[simp] theorem length_word32 (value : UInt32) : (word32 value).length = 4 :=
  length_bigEndianBytes 4 _

@[simp] theorem length_signed16 (value : Int16) : (signed16 value).length = 2 :=
  length_bigEndianBytes 2 _

@[simp] theorem length_signed32 (value : Int32) : (signed32 value).length = 4 :=
  length_bigEndianBytes 4 _

/-- The bytes of a 16-bit number are read as it. -/
theorem ofNat_bigEndian_word16 (value : UInt16) :
    UInt16.ofNat (bigEndian (word16 value)) = value := by
  have hvalue : value.toNat < 256 ^ 2 := value.toNat_lt
  rw [word16, bigEndian_bigEndianBytes, Nat.mod_eq_of_lt hvalue, UInt16.ofNat_toNat]

theorem word16_injective {value other : UInt16} (h : word16 value = word16 other) :
    value = other := by
  rw [← ofNat_bigEndian_word16 value, h, ofNat_bigEndian_word16]

/-- Two bytes are the bytes of the number that they are read as. -/
theorem eq_word16_of_length {bytes : List UInt8} (h : bytes.length = 2) :
    bytes = word16 (UInt16.ofNat (bigEndian bytes)) := by
  have hvalue : bigEndian bytes < 256 ^ bytes.length := bigEndian_lt bytes
  rw [h] at hvalue
  have hword : (UInt16.ofNat (bigEndian bytes)).toNat = bigEndian bytes :=
    UInt16.toNat_ofNat_of_lt' hvalue
  rw [word16, hword, ← h, bigEndianBytes_bigEndian]

/-- The bytes of a 32-bit number are read as it. -/
theorem ofNat_bigEndian_word32 (value : UInt32) :
    UInt32.ofNat (bigEndian (word32 value)) = value := by
  have hvalue : value.toNat < 256 ^ 4 := value.toNat_lt
  rw [word32, bigEndian_bigEndianBytes, Nat.mod_eq_of_lt hvalue, UInt32.ofNat_toNat]

theorem word32_injective {value other : UInt32} (h : word32 value = word32 other) :
    value = other := by
  rw [← ofNat_bigEndian_word32 value, h, ofNat_bigEndian_word32]

/-- Four bytes are the bytes of the number that they are read as. -/
theorem eq_word32_of_length {bytes : List UInt8} (h : bytes.length = 4) :
    bytes = word32 (UInt32.ofNat (bigEndian bytes)) := by
  have hvalue : bigEndian bytes < 256 ^ bytes.length := bigEndian_lt bytes
  rw [h] at hvalue
  have hword : (UInt32.ofNat (bigEndian bytes)).toNat = bigEndian bytes :=
    UInt32.toNat_ofNat_of_lt' hvalue
  rw [word32, hword, ← h, bigEndianBytes_bigEndian]

/-- Bytes are a 64-bit word exactly if they are its high and its low half. -/
theorem word64_eq_iff (bytes : List UInt8) (value : UInt64) :
    bytes = word64 value ↔ ∃ high low : UInt32, bytes = word32 high ++ word32 low ∧
      value = UInt64.ofNat (high.toNat * 0x100000000 + low.toNat) := by
  constructor
  · rintro rfl
    have hvalue : value.toNat < 2 ^ 64 := value.toNat_lt
    have hhigh : (UInt32.ofNat (value.toNat / 2 ^ 32)).toNat = value.toNat / 2 ^ 32 :=
      UInt32.toNat_ofNat_of_lt' (by rw [UInt32.size]; omega)
    have hlow : (UInt32.ofNat value.toNat).toNat = value.toNat % 256 ^ 4 := UInt32.toNat_ofNat'
    refine ⟨UInt32.ofNat (value.toNat / 2 ^ 32), UInt32.ofNat value.toNat, ?_, ?_⟩
    · rw [word64, word32, word32, hhigh, hlow, bigEndianBytes_mod]
      exact bigEndianBytes_add 4 4 value.toNat
    · apply UInt64.toNat_inj.mp
      rw [hhigh, hlow, UInt64.toNat_ofNat']
      omega
  · rintro ⟨high, low, rfl, rfl⟩
    have hhigh : high.toNat < 2 ^ 32 := high.toNat_lt
    have hlow : low.toNat < 2 ^ 32 := low.toNat_lt
    have hvalue : (UInt64.ofNat (high.toNat * 0x100000000 + low.toNat)).toNat =
        high.toNat * 0x100000000 + low.toNat :=
      UInt64.toNat_ofNat_of_lt' (by rw [UInt64.size]; omega)
    have hquotient : (high.toNat * 0x100000000 + low.toNat) / 256 ^ 4 = high.toNat := by omega
    have hremainder : (high.toNat * 0x100000000 + low.toNat) % 256 ^ 4 = low.toNat := by omega
    rw [word64, hvalue, bigEndianBytes_add 4 4, hquotient, ← bigEndianBytes_mod 4 (_ + _),
      hremainder, word32, word32]

end MonitorAudit
