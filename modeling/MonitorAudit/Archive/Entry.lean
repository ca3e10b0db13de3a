import MonitorAudit.Archive.EndRecord
import MonitorAudit.Deflate.Inflate
import MonitorAudit.Digest.Crc32
import MonitorAudit.Text.CodePage437
import MonitorAudit.Text.Utf8

/-!
# Entries of an archive

The directory of an archive has a header for each entry (`Entry.decoder`), which holds all that
counts: the bytes themselves stand behind a second, local header, of which only the length is used
(`Entry.stored`). Extra fields of a directory header hold the numbers that do not fit into it
(`Entry.widen`), or say how the entry is encrypted (`Entry.describeEncryption`). `Entry.contents`
decompresses the stored bytes and compares the checksum.
-/

set_option autoImplicit false

namespace MonitorAudit.Archive

/-- An entry as the directory describes it. -/
structure Entry where
  name : String
  isEncrypted : Bool
  /-- Whether an extra field says how the entry is encrypted. -/
  describesEncryption : Bool
  /-- The number of the compression method. -/
  method : Nat
  checksum : UInt32
  compressedSize : Nat
  size : Nat
  /-- The offset of the local header. -/
  headerOffset : Nat
  deriving DecidableEq, Repr

/-- How the bytes of an entry are compressed. -/
inductive Method where
  | stored
  | deflated
  deriving DecidableEq, Repr

/-- The compression method of a number. -/
def Method.ofNumber? : Nat → Option Method
  | 0 => some stored
  | 8 => some deflated
  | _ => none

namespace Entry

/-- The number of the method that stands for encryption. -/
def encryptedMethod : Nat := 99

/-! ### Extra fields -/

/-- The numbers of an entry that an extra field can hold. -/
inductive WideNumber where
  | size
  | compressedSize
  | headerOffset
  deriving DecidableEq, Repr

/-- The value of a number that an extra field can hold. -/
def wideNumber (entry : Entry) : WideNumber → Nat
  | .size => entry.size
  | .compressedSize => entry.compressedSize
  | .headerOffset => entry.headerOffset

/-- The entry with another value of a number that an extra field can hold. -/
def withWideNumber (entry : Entry) (value : Nat) : WideNumber → Entry
  | .size => { entry with size := value }
  | .compressedSize => { entry with compressedSize := value }
  | .headerOffset => { entry with headerOffset := value }

/-- The numbers of an entry that an extra field holds: those that are all ones. -/
def overfull (entry : Entry) : List WideNumber :=
  [.size, .compressedSize, .headerOffset].filter fun number ↦ entry.wideNumber number = 0xFFFFFFFF

/-- The numbers of eight bytes each at the start of the bytes, at most `count` of them. -/
def wideValues : Nat → List UInt8 → List Nat
  | 0, _ => []
  | count + 1, bytes =>
    if bytes.length < 8 then []
    else littleEndian (bytes.take 8) :: wideValues count (bytes.drop 8)

/-- The entry with the numbers at the start of the bytes in place of those that are all ones, as far
as the bytes go. -/
def widen (entry : Entry) (bytes : List UInt8) : Entry :=
  let numbers := entry.overfull
  (numbers.zip (wideValues numbers.length bytes)).foldl
    (fun entry (number, value) ↦ entry.withWideNumber value number) entry

/-- The entry with the compression method that stands in the description of its encryption. A
description that is cut off changes nothing. -/
def describeEncryption (entry : Entry) (length : Nat) (bytes : List UInt8) : Except Fault Entry :=
  if length ≠ 7 then .error (.unsupported .encryptionFieldLength)
  else if bytes.length < 7 then .ok entry
  else
    let version := littleEndian (bytes.take 2)
    let vendor := littleEndian ((bytes.drop 2).take 2)
    let strength := littleEndian ((bytes.drop 4).take 1)
    let method := littleEndian ((bytes.drop 5).take 2)
    if vendor ≠ 0x4541 then .error (.invalid .encryptionVendor)
    else if version ≠ 1 ∧ version ≠ 2 then .error (.invalid .encryptionVersion)
    else if strength < 1 ∨ 3 < strength then .error (.invalid .encryptionStrength)
    else .ok { entry with describesEncryption := true, method }

/-- Applies an extra field, whose content stands at the start of the bytes, and answers how many of
these it takes. -/
def applyField (entry : Entry) (kind length : Nat) (bytes : List UInt8) :
    Except Fault (Entry × Nat) :=
  if kind = 0x0001 then
    .ok (entry.widen bytes, max length (8 * entry.overfull.length))
  else if kind = 0x9901 then (entry.describeEncryption length bytes).map (·, 7 + length)
  else .ok (entry, length)

/-- Applies the extra fields in the bytes. What is cut off at the end is not applied. -/
def applyFields (entry : Entry) : List UInt8 → Except Fault Entry
  | kindLow :: kindHigh :: lengthLow :: lengthHigh :: bytes =>
    let kind := littleEndian [kindLow, kindHigh]
    let length := littleEndian [lengthLow, lengthHigh]
    match entry.applyField kind length bytes with
    | .error fault => .error fault
    | .ok (entry, taken) => applyFields entry (bytes.drop taken)
  | _ => .ok entry
termination_by bytes => bytes.length
decreasing_by
  simp only [List.length_drop, List.length_cons]
  omega

/-! ### Headers -/

/-- The bytes at the start of a directory header. -/
def directorySignature : List UInt8 := [0x50, 0x4B, 0x01, 0x02]

/-- The bytes at the start of a local header. -/
def localSignature : List UInt8 := [0x50, 0x4B, 0x03, 0x04]

/-- Passes over a signature. Other bytes in its place are a defect. -/
def expect (signature : List UInt8) (defect : Defect) : Decoder Fault Unit := do
  if (← Decoder.take signature.length) ≠ signature then Decoder.fail (.invalid defect)

/-- A name, which is UTF-8 where the entry says so. -/
def nameOf (isUtf8 : Bool) (bytes : List UInt8) : String :=
  if isUtf8 then Utf8.decode bytes else CodePage437.decode bytes

/-- A directory header as it stands, and its extra fields. -/
def headerDecoder : Decoder Fault (Entry × List UInt8) := do
  expect directorySignature .notADirectoryHeader
  Decoder.skip 4
  let flags ← Decoder.number 2
  let method ← Decoder.number 2
  Decoder.skip 4
  let checksum ← Decoder.number 4
  let compressedSize ← Decoder.number 4
  let size ← Decoder.number 4
  let nameLength ← Decoder.number 2
  let extraLength ← Decoder.number 2
  let commentLength ← Decoder.number 2
  Decoder.skip 8
  let headerOffset ← Decoder.number 4
  let name ← Decoder.take nameLength
  let extra ← Decoder.take extraLength
  Decoder.skip commentLength
  let entry : Entry :=
    { name := nameOf (flags.testBit 11) name, isEncrypted := flags.testBit 0,
      describesEncryption := false, method, checksum := UInt32.ofNat checksum, compressedSize, size,
      headerOffset }
  return (entry, extra)

/-- The entry with all offsets of its archive moved by a shift. -/
def move (entry : Entry) (shift : Nat) : Except Fault Entry :=
  if wordBound ≤ entry.headerOffset + shift then .error (.invalid .offsetTooLarge)
  else .ok { entry with headerOffset := entry.headerOffset + shift }

/-- An entry of a directory whose archive is moved by a shift. -/
def decoder (shift : Nat) : Decoder Fault Entry := do
  let (plain, extra) ← headerDecoder
  let entry ← Decoder.ofExcept (plain.applyFields extra)
  if entry.method = encryptedMethod ∧ !entry.describesEncryption then
    Decoder.fail (.invalid .undescribedEncryption)
  else Decoder.ofExcept (entry.move shift)

/-- The offset of the bytes of an entry, by its local header. -/
def contentOffset (entry : Entry) (archive : List UInt8) : Except Fault Nat :=
  readAt archive entry.headerOffset do
    expect localSignature .notALocalHeader
    Decoder.skip 22
    let nameLength ← Decoder.number 2
    let extraLength ← Decoder.number 2
    return entry.headerOffset + 30 + nameLength + extraLength

/-! ### Contents -/

/-- The bytes of an entry as they are stored, as far as there are any, and their method. -/
def stored (entry : Entry) (archive : List UInt8) : Except Fault (Method × List UInt8) := do
  if entry.isEncrypted then throw (.unsupported .password)
  let offset ← entry.contentOffset archive
  match Method.ofNumber? entry.method with
  | none => throw (.unsupported .compressionMethod)
  | some method => return (method, (archive.drop offset).take entry.compressedSize)

/-- The bytes that are stored. -/
def decompress : Method → List UInt8 → Except Deflate.Fault (List UInt8)
  | .stored, bytes => .ok bytes
  | .deflated, bytes => Deflate.inflate bytes

/-- The bytes of an entry, which have to agree with its checksum. -/
def contents (entry : Entry) (method : Method) (bytes : List UInt8) :
    Except ContentFault (List UInt8) := do
  let content ← (decompress method bytes).mapError ContentFault.stream
  if Crc32.checksum content = entry.checksum then return content else throw .checksum

end Entry

end MonitorAudit.Archive
