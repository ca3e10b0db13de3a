/-!
# Opcodes

The instruction set of a method body: for each opcode its mnemonic and the `Layout` of the operand
bytes behind it. The opcodes from zero on have one row each in `Opcode.table`, so an opcode has a
mnemonic exactly if it has a layout; the bytes past the table are no opcodes. The reserved opcodes
of debuggers are not part of a class file and count as unknown.
-/

set_option autoImplicit false

namespace MonitorAudit

/-- How the bytes behind an opcode are laid out. -/
inductive Layout where
  /-- No operands. -/
  | none
  /-- A signed byte. -/
  | signedByte
  /-- A signed 16-bit number. -/
  | signedShort
  /-- A constant's index in one byte. -/
  | constant8
  /-- A constant's index in two bytes. -/
  | constant16
  /-- A local variable's index in one byte, or in two behind `wide`. -/
  | slot
  /-- A local variable's index and a signed increment, one byte each, or two behind `wide`. -/
  | increment
  /-- A signed 16-bit branch offset. -/
  | branch16
  /-- A signed 32-bit branch offset. -/
  | branch32
  /-- The code of a primitive array type. -/
  | arrayType
  /-- A constant's index, an argument count and a byte without meaning. -/
  | invokeInterface
  /-- A constant's index and two bytes without meaning. -/
  | invokeDynamic
  /-- A constant's index and a number of dimensions. -/
  | multiNewArray
  /-- Padding, a default, two bounds and a branch offset for each value between them. -/
  | tableSwitch
  /-- Padding, a default, a count and that many pairs of a key and a branch offset. -/
  | lookupSwitch
  /-- Another opcode, whose operands are twice as wide. -/
  | wide
  deriving DecidableEq, Repr

namespace Opcode

/-- The mnemonic and the layout of each opcode, from zero on. -/
def table : Array (String × Layout) :=
  #[("nop", .none), ("aconst_null", .none), ("iconst_m1", .none), ("iconst_0", .none),
    ("iconst_1", .none), ("iconst_2", .none), ("iconst_3", .none), ("iconst_4", .none),
    ("iconst_5", .none), ("lconst_0", .none), ("lconst_1", .none), ("fconst_0", .none),
    ("fconst_1", .none), ("fconst_2", .none), ("dconst_0", .none), ("dconst_1", .none),
    ("bipush", .signedByte), ("sipush", .signedShort), ("ldc", .constant8), ("ldc_w", .constant16),
    ("ldc2_w", .constant16), ("iload", .slot), ("lload", .slot), ("fload", .slot),
    ("dload", .slot), ("aload", .slot), ("iload_0", .none), ("iload_1", .none),
    ("iload_2", .none), ("iload_3", .none), ("lload_0", .none), ("lload_1", .none),
    ("lload_2", .none), ("lload_3", .none), ("fload_0", .none), ("fload_1", .none),
    ("fload_2", .none), ("fload_3", .none), ("dload_0", .none), ("dload_1", .none),
    ("dload_2", .none), ("dload_3", .none), ("aload_0", .none), ("aload_1", .none),
    ("aload_2", .none), ("aload_3", .none), ("iaload", .none), ("laload", .none), ("faload", .none),
    ("daload", .none), ("aaload", .none), ("baload", .none), ("caload", .none), ("saload", .none),
    ("istore", .slot), ("lstore", .slot), ("fstore", .slot), ("dstore", .slot),
    ("astore", .slot), ("istore_0", .none), ("istore_1", .none), ("istore_2", .none),
    ("istore_3", .none), ("lstore_0", .none), ("lstore_1", .none), ("lstore_2", .none),
    ("lstore_3", .none), ("fstore_0", .none), ("fstore_1", .none), ("fstore_2", .none),
    ("fstore_3", .none), ("dstore_0", .none), ("dstore_1", .none), ("dstore_2", .none),
    ("dstore_3", .none), ("astore_0", .none), ("astore_1", .none), ("astore_2", .none),
    ("astore_3", .none), ("iastore", .none), ("lastore", .none), ("fastore", .none),
    ("dastore", .none), ("aastore", .none), ("bastore", .none), ("castore", .none),
    ("sastore", .none), ("pop", .none), ("pop2", .none), ("dup", .none), ("dup_x1", .none),
    ("dup_x2", .none), ("dup2", .none), ("dup2_x1", .none), ("dup2_x2", .none), ("swap", .none),
    ("iadd", .none), ("ladd", .none), ("fadd", .none), ("dadd", .none), ("isub", .none),
    ("lsub", .none), ("fsub", .none), ("dsub", .none), ("imul", .none), ("lmul", .none),
    ("fmul", .none), ("dmul", .none), ("idiv", .none), ("ldiv", .none), ("fdiv", .none),
    ("ddiv", .none), ("irem", .none), ("lrem", .none), ("frem", .none), ("drem", .none),
    ("ineg", .none), ("lneg", .none), ("fneg", .none), ("dneg", .none), ("ishl", .none),
    ("lshl", .none), ("ishr", .none), ("lshr", .none), ("iushr", .none), ("lushr", .none),
    ("iand", .none), ("land", .none), ("ior", .none), ("lor", .none), ("ixor", .none),
    ("lxor", .none), ("iinc", .increment), ("i2l", .none), ("i2f", .none), ("i2d", .none),
    ("l2i", .none), ("l2f", .none), ("l2d", .none), ("f2i", .none), ("f2l", .none), ("f2d", .none),
    ("d2i", .none), ("d2l", .none), ("d2f", .none), ("i2b", .none), ("i2c", .none), ("i2s", .none),
    ("lcmp", .none), ("fcmpl", .none), ("fcmpg", .none), ("dcmpl", .none), ("dcmpg", .none),
    ("ifeq", .branch16), ("ifne", .branch16), ("iflt", .branch16), ("ifge", .branch16),
    ("ifgt", .branch16), ("ifle", .branch16), ("if_icmpeq", .branch16), ("if_icmpne", .branch16),
    ("if_icmplt", .branch16), ("if_icmpge", .branch16), ("if_icmpgt", .branch16),
    ("if_icmple", .branch16), ("if_acmpeq", .branch16), ("if_acmpne", .branch16),
    ("goto", .branch16), ("jsr", .branch16), ("ret", .slot), ("tableswitch", .tableSwitch),
    ("lookupswitch", .lookupSwitch), ("ireturn", .none), ("lreturn", .none), ("freturn", .none),
    ("dreturn", .none), ("areturn", .none), ("return", .none), ("getstatic", .constant16),
    ("putstatic", .constant16), ("getfield", .constant16), ("putfield", .constant16),
    ("invokevirtual", .constant16), ("invokespecial", .constant16), ("invokestatic", .constant16),
    ("invokeinterface", .invokeInterface), ("invokedynamic", .invokeDynamic), ("new", .constant16),
    ("newarray", .arrayType), ("anewarray", .constant16), ("arraylength", .none), ("athrow", .none),
    ("checkcast", .constant16), ("instanceof", .constant16), ("monitorenter", .none),
    ("monitorexit", .none), ("wide", .wide), ("multianewarray", .multiNewArray),
    ("ifnull", .branch16), ("ifnonnull", .branch16), ("goto_w", .branch32), ("jsr_w", .branch32)]

/-- The mnemonic of an opcode. -/
def mnemonic? (opcode : UInt8) : Option String := table[opcode.toNat]?.map (·.1)

/-- The layout of the operands of an opcode. -/
def layout? (opcode : UInt8) : Option Layout := table[opcode.toNat]?.map (·.2)

/-- Adds a number to a local variable. -/
def iinc : UInt8 := 0x84

/-- Enters the monitor of an object. -/
def monitorEnter : UInt8 := 0xC2

/-- Whether `wide` may stand in front of an opcode: it names a local variable. -/
def isWidenable (opcode : UInt8) : Bool :=
  layout? opcode = some .slot || layout? opcode = some .increment

theorem size_table : table.size = 202 := by decide +kernel

theorem mnemonic?_isSome (opcode : UInt8) :
    (mnemonic? opcode).isSome = (layout? opcode).isSome := by
  simp [mnemonic?, layout?]

end Opcode

end MonitorAudit
