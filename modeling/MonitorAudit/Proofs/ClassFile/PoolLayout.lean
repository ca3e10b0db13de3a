import MonitorAudit.ClassFile.ConstantPool
import MonitorAudit.Proofs.Bytes.Format

/-!
# The bytes of a constant pool

`ConstantBytes` says which bytes are which constant: a tag and, behind it, what a constant of that
kind holds (`ConstantFields`). `FillsSlots count index` says which bytes are constants that fill the
slots from `index` up to a count: a wide constant fills two of them, and may fill one more than
there are. `PoolBytes` is the count with such constants behind it.

`ConstantPool.reads_decode` says that a constant pool is read from its bytes and from no others. The
place of the bytes does not matter, so the same pool is read wherever they stand.
-/

set_option autoImplicit false

namespace MonitorAudit

/-! ### The layout of bytes -/

/-- Which bytes stand behind the tag of a kind, and which constant they make. -/
inductive ConstantFields : ConstantKind → List UInt8 → Constant → Prop
  | utf8 {length : UInt16} {text : List UInt8} (length_eq : text.length = length.toNat) :
    ConstantFields .utf8 (word16 length ++ text) (.utf8 (ModifiedUtf8.decode text))
  | integer (value : Int32) : ConstantFields .integer (signed32 value) (.integer value)
  | float (bits : UInt32) : ConstantFields .float (word32 bits) (.float bits)
  | long (value : Int64) : ConstantFields .long (signed64 value) (.long value)
  | double (bits : UInt64) : ConstantFields .double (word64 bits) (.double bits)
  | classRef (name : UInt16) : ConstantFields .classRef (word16 name) (.classRef name)
  | string (text : UInt16) : ConstantFields .string (word16 text) (.string text)
  | fieldRef (owner member : UInt16) :
    ConstantFields .fieldRef (word16 owner ++ word16 member) (.fieldRef owner member)
  | methodRef (owner member : UInt16) :
    ConstantFields .methodRef (word16 owner ++ word16 member) (.methodRef owner member)
  | interfaceMethodRef (owner member : UInt16) :
    ConstantFields .interfaceMethodRef (word16 owner ++ word16 member)
      (.interfaceMethodRef owner member)
  | nameAndType (name descriptor : UInt16) :
    ConstantFields .nameAndType (word16 name ++ word16 descriptor) (.nameAndType name descriptor)
  | methodHandle (referenceKind : UInt8) (reference : UInt16) :
    ConstantFields .methodHandle (referenceKind :: word16 reference)
      (.methodHandle referenceKind reference)
  | methodType (descriptor : UInt16) :
    ConstantFields .methodType (word16 descriptor) (.methodType descriptor)
  | dynamic (bootstrap member : UInt16) :
    ConstantFields .dynamic (word16 bootstrap ++ word16 member) (.dynamic bootstrap member)
  | invokeDynamic (bootstrap member : UInt16) :
    ConstantFields .invokeDynamic (word16 bootstrap ++ word16 member)
      (.invokeDynamic bootstrap member)
  | moduleRef (name : UInt16) : ConstantFields .moduleRef (word16 name) (.moduleRef name)
  | packageRef (name : UInt16) : ConstantFields .packageRef (word16 name) (.packageRef name)

/-- Which bytes are which constant: the tag of its kind and its fields. -/
inductive ConstantBytes : List UInt8 → Constant → Prop
  | intro {kind : ConstantKind} {fields : List UInt8} {constant : Constant}
      (behind : ConstantFields kind fields constant) :
      ConstantBytes (kind.tag :: fields) constant

/-- Which bytes are constants, one behind the other, that fill the slots from an index on until
none is left below the count. -/
inductive FillsSlots (count : Nat) : Nat → List UInt8 → List Constant → Prop
  | full {index : Nat} (count_le : count ≤ index) : FillsSlots count index [] []
  | next {index : Nat} {bytes rest : List UInt8} {constant : Constant} {constants : List Constant}
      (index_lt : index < count) (head : ConstantBytes bytes constant)
      (tail : FillsSlots count (index + constant.width) rest constants) :
      FillsSlots count index (bytes ++ rest) (constant :: constants)

/-- Which bytes are which constant pool: the count, and constants for its slots from one on. -/
inductive PoolBytes : List UInt8 → ConstantPool → Prop
  | intro {bytes : List UInt8} {constants : List Constant} (count : UInt16)
      (filled : FillsSlots count.toNat 1 bytes constants) :
      PoolBytes (word16 count ++ bytes) (.ofConstants count constants)

open Decoder (Reads)

/-! ### Constants -/

/-- Two words are read one behind the other, for the constants that consist of two. -/
theorem reads_twoWords {ε α : Type} [OfEndOfData ε] (constant : UInt16 → UInt16 → α) :
    Reads (do return constant (← Decoder.u16) (← Decoder.u16) : Decoder ε α) fun _ bytes value ↦
      ∃ first second, bytes = word16 first ++ word16 second ∧ value = constant first second := by
  refine (Reads.u16.bind fun first ↦ Reads.u16.bind_pure _).congr fun position bytes value ↦ ?_
  constructor
  · rintro ⟨first, _, _, rfl, rfl, second, rfl, rfl⟩
    exact ⟨first, second, rfl, rfl⟩
  · rintro ⟨first, second, rfl, rfl⟩
    exact ⟨first, _, _, rfl, rfl, second, rfl, rfl⟩

/-- What stands behind the tag of a kind is read as the fields of a constant of that kind. -/
theorem ConstantKind.reads_decode {ε : Type} [OfEndOfData ε] (kind : ConstantKind) :
    Reads (kind.decode : Decoder ε Constant) fun _ ↦ ConstantFields kind := by
  cases kind with
  | utf8 =>
    refine (Reads.u16.bind fun length ↦ (Reads.take length.toNat).bind_pure _).congr
      fun position bytes constant ↦ ⟨?_, ?_⟩
    · rintro ⟨length, _, _, rfl, rfl, text, ⟨rfl, hlength⟩, rfl⟩
      exact .utf8 hlength
    · rintro ⟨hlength⟩
      exact ⟨_, _, _, rfl, rfl, _, ⟨rfl, hlength⟩, rfl⟩
  | integer =>
    refine (Reads.i32.bind_pure _).congr fun position bytes constant ↦ ⟨?_, ?_⟩
    · rintro ⟨value, rfl, rfl⟩
      exact .integer value
    · rintro ⟨⟩
      exact ⟨_, rfl, rfl⟩
  | float =>
    refine (Reads.u32.bind_pure _).congr fun position bytes constant ↦ ⟨?_, ?_⟩
    · rintro ⟨bits, rfl, rfl⟩
      exact .float bits
    · rintro ⟨⟩
      exact ⟨_, rfl, rfl⟩
  | long =>
    refine (Reads.u64.bind_pure _).congr fun position bytes constant ↦ ⟨?_, ?_⟩
    · rintro ⟨bits, rfl, rfl⟩
      exact .long bits.toInt64
    · rintro ⟨⟩
      exact ⟨_, rfl, rfl⟩
  | double =>
    refine (Reads.u64.bind_pure _).congr fun position bytes constant ↦ ⟨?_, ?_⟩
    · rintro ⟨bits, rfl, rfl⟩
      exact .double bits
    · rintro ⟨⟩
      exact ⟨_, rfl, rfl⟩
  | classRef | string | methodType | moduleRef | packageRef =>
    refine (Reads.u16.bind_pure _).congr fun position bytes constant ↦ ⟨?_, ?_⟩
    · rintro ⟨index, rfl, rfl⟩
      constructor
    · rintro ⟨⟩
      exact ⟨_, rfl, rfl⟩
  | methodHandle =>
    refine (Reads.u8.bind fun referenceKind ↦ Reads.u16.bind_pure _).congr
      fun position bytes constant ↦ ⟨?_, ?_⟩
    · rintro ⟨referenceKind, _, _, rfl, rfl, reference, rfl, rfl⟩
      exact .methodHandle referenceKind reference
    · rintro ⟨⟩
      exact ⟨_, [_], _, rfl, rfl, _, rfl, rfl⟩
  | fieldRef | methodRef | interfaceMethodRef | nameAndType | dynamic | invokeDynamic =>
    refine (reads_twoWords _).congr fun position bytes constant ↦ ⟨?_, ?_⟩
    · rintro ⟨first, second, rfl, rfl⟩
      constructor
    · rintro ⟨⟩
      exact ⟨_, _, rfl, rfl⟩

/-- A constant takes one slot or two. -/
theorem Constant.one_le_width (constant : Constant) : 1 ≤ constant.width := by
  unfold Constant.width
  split <;> omega

namespace ConstantPool

/-- A constant is read from its tag and its fields, whatever its slot. -/
theorem reads_decodeConstant (index : Nat) :
    Reads (decodeConstant index) fun _ ↦ ConstantBytes := by
  refine (Reads.position_bind fun start ↦ Reads.u8.bind
    (?fields : ∀ tag, Reads _ fun _ bytes constant ↦
      ∃ kind, ConstantKind.ofTag? tag = some kind ∧ ConstantFields kind bytes constant)).congr
    fun position bytes constant ↦ ?bytes
  case fields =>
    intro tag
    generalize ConstantKind.ofTag? tag = known
    cases known with
    | none => exact (Reads.fail _).congr fun position bytes constant ↦ by simp
    | some kind => exact kind.reads_decode.congr fun _ _ _ ↦ by simp
  case bytes =>
    constructor
    · rintro ⟨tag, _, fields, rfl, rfl, kind, hkind, hfields⟩
      rw [← ConstantKind.tag_of_ofTag? hkind]
      exact .intro hfields
    · rintro ⟨hfields⟩
      exact ⟨_, [_], _, rfl, rfl, _, ConstantKind.ofTag?_tag _, hfields⟩

/-! ### Pools -/

/-- Constants are read until the slots are filled, behind those that were read already. -/
theorem reads_decodeConstantsOnto (count index : Nat) (constants : List Constant) :
    Reads (decodeConstantsOnto count index constants) fun _ bytes values ↦
      ∃ more, values = constants.reverse ++ more ∧ FillsSlots count index bytes more := by
  induction hleft : count - index using Nat.strongRecOn generalizing index constants with
  | ind left ih =>
    rw [decodeConstantsOnto]
    refine (Reads.ite (fun hlt ↦ (reads_decodeConstant index).bind fun constant ↦
      ih (count - (index + constant.width)) ?_ _ _ rfl) fun _ ↦ Reads.pure _).congr
      fun position bytes values ↦ ?_
    · have hwidth := constant.one_le_width
      omega
    · constructor
      · rintro (⟨hlt, constant, front, back, rfl, hconstant, more, rfl, hmore⟩ | ⟨hnot, rfl, rfl⟩)
        · refine ⟨constant :: more, ?_, .next hlt hconstant hmore⟩
          rw [List.reverse_cons, List.append_assoc]
          rfl
        · exact ⟨[], (List.append_nil _).symm, .full (Nat.le_of_not_lt hnot)⟩
      · rintro ⟨more, rfl, hfills⟩
        cases hfills with
        | full hle => exact .inr ⟨Nat.not_lt_of_le hle, rfl, List.append_nil _⟩
        | next hlt hconstant hmore =>
          refine .inl ⟨hlt, _, _, _, rfl, hconstant, _, ?_, hmore⟩
          rw [List.reverse_cons, List.append_assoc]
          rfl

/-- A constant pool is read from its count and the constants that fill its slots. -/
theorem reads_decode : Reads decode fun _ ↦ PoolBytes := by
  refine (Reads.u16.bind fun count ↦ (reads_decodeConstantsOnto count.toNat 1 []).bind_pure _).congr
    fun position bytes pool ↦ ?_
  constructor
  · rintro ⟨count, _, filled, rfl, rfl, constants, ⟨more, rfl, hmore⟩, rfl⟩
    exact .intro count hmore
  · rintro ⟨count, hfilled⟩
    exact ⟨count, _, _, rfl, rfl, _, ⟨_, rfl, hfilled⟩, rfl⟩

/-- A decoder of constant pools that is given bytes by themselves accepts the bytes of a pool. -/
theorem accepts_decode_iff (bytes : List UInt8) (pool : ConstantPool) :
    decode.Accepts bytes pool ↔ PoolBytes bytes pool :=
  reads_decode.accepts_iff bytes pool

end ConstantPool

end MonitorAudit
