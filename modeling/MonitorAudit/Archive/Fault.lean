import MonitorAudit.Bytes.Decoder
import MonitorAudit.Deflate.BitStream

/-!
# Faults of archives

A `Fault` is why an archive or an entry of it cannot be opened, a `ContentFault` why the bytes of an
open entry cannot be read.
-/

set_option autoImplicit false

namespace MonitorAudit.Archive

/-- What is wrong with an archive. -/
inductive Defect where
  /-- The file is shorter than an end record. -/
  | tooShort
  | noEndRecord
  /-- The directory does not fit in front of the end record. -/
  | misplacedDirectory
  /-- There is a locator of a wide end record, but no room for the record. -/
  | noRoomForWideEndRecord
  | noWideEndRecord
  | notADirectoryHeader
  | notALocalHeader
  /-- An entry is encrypted, but no extra field says how. -/
  | undescribedEncryption
  | encryptionVendor
  | encryptionVersion
  | encryptionStrength
  /-- The offset of a local header does not fit into 64 bits. -/
  | offsetTooLarge
  deriving DecidableEq, Repr

def Defect.message : Defect → String
  | tooShort => "Invalid zip header"
  | noEndRecord => "Could not find central directory end"
  | misplacedDirectory => "Invalid central directory size or offset"
  | noRoomForWideEndRecord => "File cannot contain ZIP64 central directory end"
  | noWideEndRecord => "Could not find ZIP64 central directory end"
  | notADirectoryHeader => "Invalid Central Directory header"
  | notALocalHeader => "Invalid local file header"
  | undescribedEncryption => "AES encryption without AES extra data field"
  | encryptionVendor => "Invalid AES vendor"
  | encryptionVersion => "Invalid AES vendor version"
  | encryptionStrength => "Invalid AES encryption strength"
  | offsetTooLarge => "Archive header is too large"

/-- What an archive asks for that is not done. -/
inductive Demand where
  | manyDisks
  | password
  | compressionMethod
  | encryptionFieldLength
  deriving DecidableEq, Repr

def Demand.message : Demand → String
  | manyDisks => "Support for multi-disk files is not implemented"
  | password => "Password required to decrypt file"
  | compressionMethod => "Compression method not supported"
  | encryptionFieldLength => "AES extra data field has an unsupported length"

/-- Why an archive or an entry of it cannot be opened. -/
inductive Fault where
  /-- The file ends inside a header. -/
  | endOfData
  | invalid (defect : Defect)
  | unsupported (demand : Demand)
  deriving DecidableEq, Repr

instance : OfEndOfData Fault := ⟨fun _ ↦ .endOfData⟩

/-- The wording of a fault, followed by the wording of its cause where it has one. -/
def Fault.message : Fault → String
  | endOfData => "failed to fill whole buffer: failed to fill whole buffer"
  | invalid defect => "invalid Zip archive: " ++ defect.message
  | unsupported demand => "unsupported Zip archive: " ++ demand.message

/-- Why the bytes of an open entry cannot be read. -/
inductive ContentFault where
  | stream (fault : Deflate.Fault)
  | checksum
  deriving DecidableEq, Repr

def ContentFault.message : ContentFault → String
  | stream fault => fault.message
  | checksum => "Invalid checksum"

end MonitorAudit.Archive
