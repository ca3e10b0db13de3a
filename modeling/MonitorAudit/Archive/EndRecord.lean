import MonitorAudit.Archive.Fault
import MonitorAudit.Bytes.Search

/-!
# The end of an archive

An archive ends in a record that says where its directory stands. `directoryExtent` finds the
record and answers the stretch of the directory. Where a locator stands in front of the record, it
leads to a wide record, whose numbers count instead. An archive can stand behind other bytes: the
shift is the number of these, by which all its offsets are too small.
-/

set_option autoImplicit false

namespace MonitorAudit.Archive

/-- What is read at an offset of the bytes. -/
def readAt {α : Type} (bytes : List UInt8) (offset : Nat) (decoder : Decoder Fault α) :
    Except Fault α :=
  (decoder ((Cursor.ofBytes bytes).advance offset)).1

/-! ### Records -/

/-- The record at the end of an archive. -/
structure EndRecord where
  disk : Nat
  directoryDisk : Nat
  /-- The number of entries on this disk. -/
  entriesHere : Nat
  entries : Nat
  directorySize : Nat
  directoryOffset : Nat
  commentLength : Nat
  deriving DecidableEq, Repr

namespace EndRecord

/-- The bytes at the start of the record. -/
def signature : List UInt8 := [0x50, 0x4B, 0x05, 0x06]

/-- The number of bytes of the record without its comment. -/
def leastSize : Nat := 22

/-- The greatest number of bytes of a comment. -/
def greatestComment : Nat := 0xFFFF

def decoder : Decoder Fault EndRecord := do
  Decoder.skip 4
  let disk ← Decoder.number 2
  let directoryDisk ← Decoder.number 2
  let entriesHere ← Decoder.number 2
  let entries ← Decoder.number 2
  let directorySize ← Decoder.number 4
  let directoryOffset ← Decoder.number 4
  let commentLength ← Decoder.number 2
  Decoder.skip commentLength
  return { disk, directoryDisk, entriesHere, entries, directorySize, directoryOffset,
           commentLength }

/-- Whether a number of the record is all ones, as it is where its value does not fit. -/
def isOverfull (record : EndRecord) : Bool :=
  [record.disk, record.directoryDisk, record.entriesHere, record.entries].contains 0xFFFF ||
    [record.directorySize, record.directoryOffset].contains 0xFFFFFFFF

/-- The offset of the last record that starts where a comment of any length can end the bytes. -/
def find (bytes : List UInt8) : Except Fault Nat :=
  if bytes.length < leastSize then .error (.invalid .tooShort)
  else
    let greatest := bytes.length - leastSize
    let least := greatest - greatestComment
    let searched := (bytes.take (greatest + signature.length)).drop least
    match lastOccurrence? signature least searched with
    | some offset => .ok offset
    | none => .error (.invalid .noEndRecord)

end EndRecord

/-- The pointer to a wide end record. -/
structure Locator where
  disk : Nat
  recordOffset : Nat
  deriving DecidableEq, Repr

namespace Locator

/-- The bytes at the start of the locator. -/
def signature : List UInt8 := [0x50, 0x4B, 0x06, 0x07]

/-- The number of bytes of the locator. -/
def size : Nat := 20

def decoder : Decoder Fault Locator := do
  Decoder.skip 4
  let disk ← Decoder.number 4
  let recordOffset ← Decoder.number 8
  Decoder.skip 4
  return { disk, recordOffset }

/-- The locator in front of an end record that ends the bytes. -/
def find? (bytes : List UInt8) (record : EndRecord) : Except Fault (Option Locator) :=
  let behind := size + EndRecord.leastSize + record.commentLength
  if bytes.length < behind then .ok none
  else
    let offset := bytes.length - behind
    if startsWith signature (bytes.drop offset) then (readAt bytes offset decoder).map some
    else .ok none

end Locator

/-- The end record with room for greater numbers. -/
structure WideEndRecord where
  disk : Nat
  directoryDisk : Nat
  entries : Nat
  directoryOffset : Nat
  deriving DecidableEq, Repr

namespace WideEndRecord

/-- The bytes at the start of the record. -/
def signature : List UInt8 := [0x50, 0x4B, 0x06, 0x06]

/-- How far in front of an end record a wide one starts at least. -/
def leastDistance : Nat := 60

def decoder : Decoder Fault WideEndRecord := do
  Decoder.skip 16
  let disk ← Decoder.number 4
  let directoryDisk ← Decoder.number 4
  Decoder.skip 8
  let entries ← Decoder.number 8
  Decoder.skip 8
  let directoryOffset ← Decoder.number 8
  return { disk, directoryDisk, entries, directoryOffset }

/-- The offset of the first record from where the locator points to on. -/
def find (bytes : List UInt8) (endOffset : Nat) (locator : Locator) : Except Fault Nat :=
  if endOffset < leastDistance then .error (.invalid .noRoomForWideEndRecord)
  else
    let greatest := endOffset - leastDistance
    let searched := (bytes.take (greatest + signature.length)).drop locator.recordOffset
    match firstOccurrence? signature locator.recordOffset searched with
    | some offset => .ok offset
    | none => .error (.invalid .noWideEndRecord)

end WideEndRecord

/-! ### The directory -/

/-- Where the directory of an archive stands. -/
structure Extent where
  /-- By how much the offsets of the archive are too small. -/
  shift : Nat
  /-- The offset of the directory. -/
  start : Nat
  /-- The number of headers in the directory. -/
  count : Nat
  deriving DecidableEq, Repr

/-- The number of values of a 64-bit number. -/
def wordBound : Nat := 0x10000000000000000

/-- The directory in front of an end record at an offset. -/
def narrowExtent (endOffset : Nat) (record : EndRecord) : Except Fault Extent :=
  if endOffset < record.directorySize + record.directoryOffset then
    .error (.invalid .misplacedDirectory)
  else
    let shift := endOffset - record.directorySize - record.directoryOffset
    .ok { shift, start := record.directoryOffset + shift, count := record.entriesHere }

/-- The directory of the wide end record that a locator leads to. -/
def wideExtent (bytes : List UInt8) (endOffset : Nat) (record : EndRecord) (locator : Locator) :
    Except Fault Extent := do
  if !record.isOverfull && record.disk != locator.disk then throw (.unsupported .manyDisks)
  let offset ← WideEndRecord.find bytes endOffset locator
  let wide ← readAt bytes offset WideEndRecord.decoder
  if wide.disk ≠ wide.directoryDisk then throw (.unsupported .manyDisks)
  let shift := offset - locator.recordOffset
  if wordBound ≤ wide.directoryOffset + shift then throw (.invalid .misplacedDirectory)
  return { shift, start := wide.directoryOffset + shift, count := wide.entries }

/-- Where the directory of an archive stands. -/
def directoryExtent (bytes : List UInt8) : Except Fault Extent := do
  let endOffset ← EndRecord.find bytes
  let record ← readAt bytes endOffset EndRecord.decoder
  if !record.isOverfull && record.disk != record.directoryDisk then
    throw (.unsupported .manyDisks)
  match ← Locator.find? bytes record with
  | none => narrowExtent endOffset record
  | some locator => wideExtent bytes endOffset record locator

end MonitorAudit.Archive
