import MonitorAudit.Text.Utf16

/-!
# Modified UTF-8

The texts of a class file are UTF-16 code units, each in one, two or three bytes: zero has the
two-byte form, and a supplementary character is two surrogates of three bytes each.

`units` splits any bytes into code units. It looks at the leading bits of the first byte of a unit
only, and a byte that starts no unit, or whose unit runs off the end, stands for one replacement
character. `decode` prefers the other reading where there is one: bytes that are well-formed
UTF-8 as they stand are that text, so supplementary characters in their four-byte form are
kept. `encode` is the writer of the format.
-/

set_option autoImplicit false

namespace MonitorAudit.ModifiedUtf8

/-- How many bytes a first byte announces. -/
inductive Width where
  /-- The byte is the unit. -/
  | one
  /-- Five bits, and six in the next byte. -/
  | two
  /-- Four bits, and six in each of the next two bytes. -/
  | three
  /-- The byte starts no unit. -/
  | none
  deriving DecidableEq, Repr

/-- The width that the leading bits of a first byte announce. -/
def Width.of (first : UInt8) : Width :=
  if first.toNat < 0x80 then .one
  else if first.toNat / 0x20 = 0x6 then .two
  else if first.toNat / 0x10 = 0xE then .three
  else .none

/-- The low six bits of a byte that continues a unit. -/
def low6 (byte : UInt8) : Nat := byte.toNat % 0x40

/-- The unit of a two-byte form. -/
def unitOfTwo (first second : UInt8) : UInt16 :=
  UInt16.ofNat (first.toNat % 0x20 * 0x40 + low6 second)

/-- The unit of a three-byte form. -/
def unitOfThree (first second third : UInt8) : UInt16 :=
  UInt16.ofNat (first.toNat % 0x10 * 0x1000 + low6 second * 0x40 + low6 third)

/-- What stands for a byte that starts no unit. -/
def replacementUnit : UInt16 := 0xFFFD

/-- Splits bytes into units behind those already split off, which come last first. -/
def unitsOnto : List UInt16 → List UInt8 → List UInt16
  | split, [] => split.reverse
  | split, first :: rest =>
    match Width.of first with
    | .one => unitsOnto (first.toUInt16 :: split) rest
    | .two =>
      match rest with
      | [] => (replacementUnit :: split).reverse
      | second :: rest => unitsOnto (unitOfTwo first second :: split) rest
    | .three =>
      match rest with
      | [] => (replacementUnit :: split).reverse
      | [second] => unitsOnto (replacementUnit :: split) [second]
      | second :: third :: rest => unitsOnto (unitOfThree first second third :: split) rest
    | .none => unitsOnto (replacementUnit :: split) rest

/-- The code units of any bytes, with a replacement for each byte that starts none. -/
def units (bytes : List UInt8) : List UInt16 := unitsOnto [] bytes

/-- The text of any bytes, unit by unit. -/
def decodeUnits (bytes : List UInt8) : String := String.ofList (Utf16.decodeLossy (units bytes))

/-- The text of any bytes: the text that they are in UTF-8, or else the text of their units. -/
def decode (bytes : List UInt8) : String :=
  match String.fromUTF8? bytes.toByteArray with
  | some text => text
  | none => decodeUnits bytes

/-! ### Writing -/

/-- The bytes of one code unit. -/
def encodeUnit (unit : UInt16) : List UInt8 :=
  if unit ≠ 0 ∧ unit < 0x80 then [unit.toUInt8]
  else if unit < 0x800 then
    [UInt8.ofNat (0xC0 + unit.toNat / 0x40), UInt8.ofNat (0x80 + unit.toNat % 0x40)]
  else
    [UInt8.ofNat (0xE0 + unit.toNat / 0x1000), UInt8.ofNat (0x80 + unit.toNat / 0x40 % 0x40),
      UInt8.ofNat (0x80 + unit.toNat % 0x40)]

/-- The bytes of a list of code units. -/
def encode (units : List UInt16) : List UInt8 := units.flatMap encodeUnit

end MonitorAudit.ModifiedUtf8
