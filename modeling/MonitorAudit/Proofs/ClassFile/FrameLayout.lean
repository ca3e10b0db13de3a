import MonitorAudit.ClassFile.StackMapFrame
import MonitorAudit.Proofs.Bytes.Format

/-!
# The bytes of stack map frames

A verification type has one encoding (`VerificationType.encode`). A frame may have two, since its
distance from the frame before can be part of its number or stand behind it, and so its layout is a
relation, `FrameBytes`, with one case for each stretch of numbers.

`StackMapFrame.reads_decode` says that a frame is read from these bytes and from no others: the
numbers from 128 to 246 start no frame.
-/

set_option autoImplicit false

namespace MonitorAudit

/-- The bytes of a verification type. -/
def VerificationType.encode : VerificationType → List UInt8
  | top => [0]
  | integer => [1]
  | float => [2]
  | double => [3]
  | long => [4]
  | null => [5]
  | uninitializedThis => [6]
  | object classIndex => 7 :: word16 classIndex
  | uninitialized offset => 8 :: word16 offset

/-- Which bytes are a verification type. -/
def VerificationBytes (bytes : List UInt8) (type : VerificationType) : Prop := bytes = type.encode

/-- Which bytes are a stack map frame, by the stretch in which the number in front of it lies. -/
inductive FrameBytes : List UInt8 → StackMapFrame → Prop
  | same {number : UInt8} (number_lt : number.toNat < 64) :
    FrameBytes [number] (.same number.toUInt16)
  | sameLocalsOneStack {number : UInt8} {stack : VerificationType} {bytes : List UInt8}
      (le_number : 64 ≤ number.toNat) (number_lt : number.toNat < 128)
      (behind : VerificationBytes bytes stack) :
      FrameBytes (number :: bytes) (.sameLocalsOneStack (number - 64).toUInt16 stack)
  | sameLocalsOneStackExtended {stack : VerificationType} {bytes : List UInt8} (delta : UInt16)
      (behind : VerificationBytes bytes stack) :
      FrameBytes (247 :: (word16 delta ++ bytes)) (.sameLocalsOneStack delta stack)
  | chop {number : UInt8} (le_number : 248 ≤ number.toNat) (number_lt : number.toNat < 251)
      (delta : UInt16) :
      FrameBytes (number :: word16 delta) (.chop delta (251 - number))
  | sameExtended (delta : UInt16) : FrameBytes (251 :: word16 delta) (.same delta)
  | append {number : UInt8} {locals : List VerificationType} {bytes : List UInt8}
      (le_number : 252 ≤ number.toNat) (number_lt : number.toNat < 255) (delta : UInt16)
      (length_eq : locals.length = number.toNat - 251)
      (rows : Rows VerificationBytes bytes locals) :
      FrameBytes (number :: (word16 delta ++ bytes)) (.append delta locals)
  | full {locals stack : List VerificationType} {localsBytes stackBytes : List UInt8}
      (delta : UInt16) (localsTable : Table16 VerificationBytes localsBytes locals)
      (stackTable : Table16 VerificationBytes stackBytes stack) :
      FrameBytes (255 :: (word16 delta ++ (localsBytes ++ stackBytes))) (.full delta locals stack)

open Decoder (Reads)

/-- A verification type is read from its bytes. -/
theorem VerificationType.reads_decode : Reads decode fun _ ↦ VerificationBytes := by
  refine (Reads.position_bind fun start ↦ Reads.u8.bind (?behind : ∀ tag, Reads _ fun _ bytes type ↦
    tag :: bytes = VerificationType.encode type)).congr fun position bytes type ↦ ?bytes
  case behind =>
    intro tag
    split
    case h_8 htag =>
      obtain rfl : tag = 7 := UInt8.toNat_inj.mp htag
      refine (Reads.u16.bind_pure _).congr fun position bytes type ↦ ⟨?_, ?_⟩
      · rintro ⟨index, rfl, rfl⟩
        rfl
      · intro h
        cases type <;> simp [encode] at h ⊢
        exact h
    case h_9 htag =>
      obtain rfl : tag = 8 := UInt8.toNat_inj.mp htag
      refine (Reads.u16.bind_pure _).congr fun position bytes type ↦ ⟨?_, ?_⟩
      · rintro ⟨index, rfl, rfl⟩
        rfl
      · intro h
        cases type <;> simp [encode] at h ⊢
        exact h
    case h_10 =>
      refine (Reads.fail _).congr fun position bytes type ↦ ⟨False.elim, ?_⟩
      intro h
      cases type <;> simp_all [encode]
    all_goals
      rename_i htag
      refine (Reads.pure _).congr fun position bytes type ↦ ⟨?_, ?_⟩
      · rintro ⟨rfl, rfl⟩
        rw [← UInt8.ofNat_toNat (x := tag), htag]
        rfl
      · intro h
        cases type <;> simp_all [encode]
  case bytes =>
    constructor
    · rintro ⟨tag, _, rest, rfl, rfl, htype⟩
      exact htype
    · intro htype
      cases bytes with
      | nil => cases type <;> simp [VerificationBytes, encode] at htype
      | cons tag rest => exact ⟨tag, [tag], rest, rfl, rfl, htype⟩

/-- A frame is read from its bytes. -/
theorem StackMapFrame.reads_decode : Reads decode fun _ ↦ FrameBytes := by
  refine (Reads.position_bind fun start ↦ Reads.u8.bind fun number ↦
    Reads.ite (fun _ ↦ Reads.pure _) fun _ ↦
    Reads.ite (fun _ ↦ VerificationType.reads_decode.bind_pure _) fun _ ↦
    Reads.guard _ fun _ ↦
    Reads.ite (fun _ ↦ Reads.u16.bind fun delta ↦ VerificationType.reads_decode.bind_pure _) fun _ ↦
    Reads.ite (fun _ ↦ Reads.u16.bind_pure _) fun _ ↦
    Reads.ite (fun _ ↦ Reads.u16.bind_pure _) fun _ ↦
    Reads.ite (fun _ ↦ Reads.u16.bind fun delta ↦
      (VerificationType.reads_decode.times _).bind_pure _) fun _ ↦
    Reads.u16.bind fun delta ↦ VerificationType.reads_decode.counted16.bind fun locals ↦
      VerificationType.reads_decode.counted16.bind_pure _).congr fun position bytes frame ↦ ?_
  have hnumber (number : UInt8) : number.toNat < 256 := number.toNat_lt
  simp only [UInt8.lt_iff_toNat_lt, ← UInt8.toNat_inj, UInt8.reduceToNat]
  constructor
  · rintro ⟨number, _, _, rfl, rfl, ⟨hlt, rfl, rfl⟩ | ⟨hge, ⟨hlt, stack, hstack, rfl⟩ |
      ⟨hge, hgap, ⟨heq, delta, _, _, rfl, rfl, stack, hstack, rfl⟩ | ⟨hne, ⟨hlt, delta, rfl, rfl⟩ |
      ⟨hge, ⟨heq, delta, rfl, rfl⟩ |
      ⟨hne, ⟨hlt, delta, _, _, rfl, rfl, locals, ⟨hlength, hrows⟩, rfl⟩ |
      ⟨hlast, delta, _, _, rfl, rfl, locals, _, _, rfl, hlocals, stack, hstack, rfl⟩⟩⟩⟩⟩⟩⟩
    · exact .same hlt
    · exact .sameLocalsOneStack (by omega) hlt hstack
    · obtain rfl : number = 247 := UInt8.toNat_inj.mp heq
      exact .sameLocalsOneStackExtended delta hstack
    · exact .chop (by omega) hlt delta
    · obtain rfl : number = 251 := UInt8.toNat_inj.mp heq
      exact .sameExtended delta
    · exact .append (by omega) hlt delta hlength hrows
    · obtain rfl : number = 255 := UInt8.toNat_inj.mp (by have := hnumber number; simp; omega)
      exact .full delta hlocals hstack
  · intro hframe
    cases hframe with
    | same hlt => exact ⟨_, [_], _, rfl, rfl, .inl ⟨hlt, rfl, rfl⟩⟩
    | sameLocalsOneStack hle hlt hstack =>
      exact ⟨_, [_], _, rfl, rfl, .inr ⟨by omega, .inl ⟨hlt, _, hstack, rfl⟩⟩⟩
    | sameLocalsOneStackExtended delta hstack =>
      exact ⟨247, [247], _, rfl, rfl, .inr ⟨by decide, .inr ⟨by decide, by decide,
        .inl ⟨rfl, delta, _, _, rfl, rfl, _, hstack, rfl⟩⟩⟩⟩
    | chop hle hlt delta =>
      exact ⟨_, [_], _, rfl, rfl, .inr ⟨by omega, .inr ⟨by omega, by omega,
        .inr ⟨by omega, .inl ⟨hlt, delta, rfl, rfl⟩⟩⟩⟩⟩
    | sameExtended delta =>
      exact ⟨251, [251], _, rfl, rfl, .inr ⟨by decide, .inr ⟨by decide, by decide,
        .inr ⟨by decide, .inr ⟨by decide, .inl ⟨rfl, delta, rfl, rfl⟩⟩⟩⟩⟩⟩
    | append hle hlt delta hlength hrows =>
      exact ⟨_, [_], _, rfl, rfl, .inr ⟨by omega, .inr ⟨by omega, by omega,
        .inr ⟨by omega, .inr ⟨by omega, .inr ⟨by omega,
          .inl ⟨hlt, delta, _, _, rfl, rfl, _, ⟨hlength, hrows⟩, rfl⟩⟩⟩⟩⟩⟩⟩
    | full delta hlocals hstack =>
      exact ⟨255, [255], _, rfl, rfl, .inr ⟨by decide, .inr ⟨by decide, by decide,
        .inr ⟨by decide, .inr ⟨by decide, .inr ⟨by decide,
          .inr ⟨by decide, delta, _, _, rfl, rfl, _, _, _, rfl, hlocals, _, hstack, rfl⟩⟩⟩⟩⟩⟩⟩

end MonitorAudit
