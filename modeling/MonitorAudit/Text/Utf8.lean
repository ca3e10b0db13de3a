/-!
# UTF-8

`Utf8.decode` reads bytes as UTF-8. Bytes that are the start of no character give one replacement
character for each longest stretch that could have started one.
-/

set_option autoImplicit false

namespace MonitorAudit.Utf8

/-- What stands for bytes that are no character. -/
def replacement : Char := '\uFFFD'

/-- The start of a character: its bits so far, the number of missing bytes, and the range in which
the next byte has to lie. -/
structure Start where
  bits : Nat
  missing : Nat
  least : UInt8
  greatest : UInt8
  deriving DecidableEq, Repr

/-- The start of a character that a byte above the ASCII range makes. -/
def Start.ofByte? (byte : UInt8) : Option Start :=
  let value := byte.toNat
  if 0xC2 ≤ byte ∧ byte ≤ 0xDF then some ⟨value % 0x20, 1, 0x80, 0xBF⟩
  else if byte = 0xE0 then some ⟨0x0, 2, 0xA0, 0xBF⟩
  else if byte = 0xED then some ⟨0xD, 2, 0x80, 0x9F⟩
  else if 0xE1 ≤ byte ∧ byte ≤ 0xEF then some ⟨value % 0x10, 2, 0x80, 0xBF⟩
  else if byte = 0xF0 then some ⟨0x0, 3, 0x90, 0xBF⟩
  else if byte = 0xF4 then some ⟨0x4, 3, 0x80, 0x8F⟩
  else if 0xF1 ≤ byte ∧ byte ≤ 0xF3 then some ⟨value % 0x8, 3, 0x80, 0xBF⟩
  else none

/-- The characters read so far, the last one first, and the character that has been started. -/
structure Progress where
  chars : List Char
  started? : Option Start
  deriving DecidableEq, Repr

namespace Progress

/-- Reads a byte at which a character starts. -/
def begin (chars : List Char) (byte : UInt8) : Progress :=
  if byte < 0x80 then ⟨Char.ofNat byte.toNat :: chars, none⟩
  else
    match Start.ofByte? byte with
    | some start => ⟨chars, some start⟩
    | none => ⟨replacement :: chars, none⟩

/-- Reads a byte. -/
def step (progress : Progress) (byte : UInt8) : Progress :=
  match progress.started? with
  | none => begin progress.chars byte
  | some start =>
    if start.least ≤ byte ∧ byte ≤ start.greatest then
      let bits := start.bits * 0x40 + byte.toNat % 0x40
      if start.missing ≤ 1 then ⟨Char.ofNat bits :: progress.chars, none⟩
      else ⟨progress.chars, some ⟨bits, start.missing - 1, 0x80, 0xBF⟩⟩
    else begin (replacement :: progress.chars) byte

/-- The characters at the end of the bytes. -/
def finish (progress : Progress) : List Char :=
  match progress.started? with
  | none => progress.chars.reverse
  | some _ => (replacement :: progress.chars).reverse

end Progress

/-- The text of bytes. -/
def decode (bytes : List UInt8) : String :=
  String.ofList (bytes.foldl Progress.step ⟨[], none⟩).finish

end MonitorAudit.Utf8
