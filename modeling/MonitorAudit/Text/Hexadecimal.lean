/-!
# Hexadecimal text

Numbers and bytes in lower-case hexadecimal digits: a number padded with zeros to a width, and a
list of bytes at two digits each.
-/

set_option autoImplicit false

namespace MonitorAudit.Hexadecimal

/-- The digits of a number, with zeros in front up to the width. -/
def padded (width : Nat) (value : Nat) : String :=
  let digits := Nat.toDigits 16 value
  String.ofList (List.replicate (width - digits.length) '0' ++ digits)

/-- The digit of a value below sixteen. -/
def digit (value : Nat) : Char :=
  if value < 10 then Char.ofNat (0x30 + value) else Char.ofNat (0x57 + value)

/-- Two digits for each byte. -/
def ofBytes (bytes : List UInt8) : String :=
  String.ofList (bytes.flatMap fun byte ↦ [digit (byte.toNat / 16), digit (byte.toNat % 16)])

end MonitorAudit.Hexadecimal
