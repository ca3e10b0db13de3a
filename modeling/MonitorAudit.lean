import MonitorAudit.Bytes.Cursor
import MonitorAudit.Bytes.Decoder
import MonitorAudit.Text.ModifiedUtf8
import MonitorAudit.ClassFile.Constant
import MonitorAudit.ClassFile.ConstantPool
import MonitorAudit.Bytecode.Instruction
import MonitorAudit.ClassFile.ElementValue
import MonitorAudit.ClassFile.LineNumberTable
import MonitorAudit.ClassFile.StackMapFrame
import MonitorAudit.ClassFile.Attribute
import MonitorAudit.ClassFile.AttributeRecord
import MonitorAudit.Audit.Finding
import MonitorAudit.Digest.Sha256
import MonitorAudit.Report.Json
import MonitorAudit.Report.UnitReport
import MonitorAudit.Command.Options
import MonitorAudit.Deflate.BitStream
import MonitorAudit.Deflate.Inflate
import MonitorAudit.Files.Path
import MonitorAudit.Scan.InputKind
import MonitorAudit.Archive.EndRecord
import MonitorAudit.Digest.Crc32
import MonitorAudit.Text.CodePage437
import MonitorAudit.Text.Utf8
import MonitorAudit.Archive.Entry
import MonitorAudit.Archive.Member
import MonitorAudit.Command.Program
import MonitorAudit.Files.Tree
import MonitorAudit.Main
import MonitorAudit.Proofs.Bytes.Format
import MonitorAudit.Proofs.Bytes.Encoding
import MonitorAudit.Proofs.Bytes.Extension
import MonitorAudit.Proofs.Bytecode.Assembly
import MonitorAudit.Proofs.ClassFile.PoolLayout
import MonitorAudit.Proofs.ClassFile.AttributeLayout
import MonitorAudit.Proofs.ClassFile.LineOrder
import MonitorAudit.Proofs.ClassFile.AnnotationEncoding
import MonitorAudit.Proofs.ClassFile.FrameEncoding
import MonitorAudit.Proofs.ClassFile.AttributeEncoding
import MonitorAudit.Proofs.ClassFile.ClassLayout
import MonitorAudit.Proofs.ClassFile.Truncation
import MonitorAudit.Proofs.ClassFile.Bodies
import MonitorAudit.Proofs.ClassFile.Steps
import MonitorAudit.Proofs.ClassFile.Walk
import MonitorAudit.Proofs.ClassFile.PoolIndexing
import MonitorAudit.Proofs.Bytes.Patch
import MonitorAudit.Proofs.ClassFile.Reach
import MonitorAudit.Proofs.Audit.Findings
import MonitorAudit.Proofs.Audit.Unread
import MonitorAudit.Proofs.Checked.Reader
import MonitorAudit.Proofs.Checked.Pool
import MonitorAudit.Proofs.Checked.Attribute
import MonitorAudit.Proofs.Checked.ClassFile
import MonitorAudit.Proofs.Checked.Instruction
import MonitorAudit.Proofs.Checked.Audit
import MonitorAudit.Proofs.Checked.Core
import MonitorAudit.Proofs.Scan.FirstFailure
import MonitorAudit.Proofs.Scan.Workers
import MonitorAudit.Proofs.Bytes.Failure
import MonitorAudit.Proofs.ClassFile.Failure
import MonitorAudit.Proofs.ClassFile.Location
import MonitorAudit.Proofs.ClassFile.Wants
import MonitorAudit.Proofs.Audit.Located
import MonitorAudit.Proofs.Audit.Listener
import MonitorAudit.Proofs.Bytes.Faults
import MonitorAudit.Proofs.ClassFile.PayloadFaults
import MonitorAudit.Proofs.Bytecode.Faults
import MonitorAudit.Proofs.ClassFile.Diagnosis
import MonitorAudit.Proofs.Text.ModifiedUtf8
import MonitorAudit.Proofs.Audit.Sequence
import MonitorAudit.Proofs.Bytes.Whole
import MonitorAudit.Proofs.Bytes.Resumption
import MonitorAudit.Proofs.ClassFile.PayloadStreams
import MonitorAudit.Proofs.ClassFile.DeclaredLength
import MonitorAudit.Proofs.Report.JsonSyntax
import MonitorAudit.Proofs.Report.JsonReader
import MonitorAudit.Proofs.Report.JsonWriter
import MonitorAudit.Proofs.Report.ReadBack
import MonitorAudit.Proofs.Bytecode.Tiling
import MonitorAudit.Proofs.Bytecode.Concatenation
import MonitorAudit.Proofs.Bytecode.Switches
import MonitorAudit.Proofs.ClassFile.ElementNesting
import MonitorAudit.Proofs.ClassFile.NestingLimit
import MonitorAudit.Proofs.ClassFile.LineLookup
import MonitorAudit.Proofs.Audit.Sites
import MonitorAudit.Proofs.Text.Utf8
import MonitorAudit.Proofs.Text.Readings
import MonitorAudit.Proofs.Audit.FaultNames
import MonitorAudit.Proofs.Report.LineBreaks
import MonitorAudit.Proofs.Report.Framing
import MonitorAudit.Proofs.ClassFile.BodyNesting
import MonitorAudit.Proofs.Bytes.Handles
import MonitorAudit.Proofs.Checked.Handles
