/-!
# CRC-32

The 32-bit checksum of a list of bytes: the remainder of a division of polynomials over two
elements, whose bits are kept in reversed order. The remainder starts with all bits set, and all
bits of the last one are flipped.
-/

set_option autoImplicit false

namespace MonitorAudit.Crc32

/-- The divisor without its leading term. -/
def polynomial : UInt32 := 0xEDB88320

/-- The remainder after one more bit. -/
def shift (remainder : UInt32) : UInt32 :=
  if remainder &&& 1 = 1 then remainder >>> 1 ^^^ polynomial else remainder >>> 1

/-- The remainder after one more byte. -/
def update (remainder : UInt32) (byte : UInt8) : UInt32 :=
  Nat.repeat shift 8 (remainder ^^^ byte.toUInt32)

/-- The checksum of bytes. -/
def checksum (bytes : List UInt8) : UInt32 := ~~~(bytes.foldl update 0xFFFFFFFF)

@[simp] theorem checksum_nil : checksum [] = 0 := by decide

end MonitorAudit.Crc32
