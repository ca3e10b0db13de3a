import MonitorAudit.Proofs.Bytes.Encoding
import MonitorAudit.Proofs.ClassFile.FrameLayout

/-!
# Stack map frames written as bytes

A frame near the one before it can be written in a short form, with the distance as part of its
number, and any frame that has a short form also has a long one. `StackMapFrame.encode` takes the
choice between them as an argument and falls back to the long form where the distance is too large.

`frameBytes_iff` says that these are the spellings of a frame, and that a frame has one if its
counts fit.
-/

set_option autoImplicit false

namespace MonitorAudit

namespace StackMapFrame

/-- The bytes of a frame, in its long form if that is asked for or the distance needs it. -/
def encode (long : Bool) : StackMapFrame → List UInt8
  | same delta =>
    if long ∨ 64 ≤ delta.toNat then 251 :: word16 delta else [UInt8.ofNat delta.toNat]
  | sameLocalsOneStack delta stack =>
    if long ∨ 64 ≤ delta.toNat then 247 :: (word16 delta ++ stack.encode)
    else UInt8.ofNat (64 + delta.toNat) :: stack.encode
  | chop delta absentLocals => (251 - absentLocals) :: word16 delta
  | append delta locals =>
    UInt8.ofNat (251 + locals.length) ::
      (word16 delta ++ locals.flatMap VerificationType.encode)
  | full delta locals stack =>
    255 :: (word16 delta ++ (encodeTable16 (locals.map VerificationType.encode) ++
      encodeTable16 (stack.map VerificationType.encode)))

/-- A frame with counts that the layout can hold. -/
def Fits : StackMapFrame → Prop
  | same _ | sameLocalsOneStack _ _ => True
  | chop _ absentLocals => 1 ≤ absentLocals.toNat ∧ absentLocals.toNat ≤ 3
  | append _ locals => 1 ≤ locals.length ∧ locals.length ≤ 3
  | full _ locals stack => locals.length < UInt16.size ∧ stack.length < UInt16.size

end StackMapFrame

/-- A table of verification types has one spelling. -/
theorem VerificationType.table_hasOneSpelling :
    HasOneSpelling (Table16 VerificationBytes) (fun types ↦ encodeTable16 (types.map encode))
      fun types ↦ types.length < UInt16.size :=
  .table16_of_eq encode

/-- Chopped locals are counted down from the number of frames that chop none. -/
theorem toNat_sub_of_chop (absentLocals : UInt8) (h : absentLocals.toNat ≤ 251) :
    (251 - absentLocals).toNat = 251 - absentLocals.toNat :=
  UInt8.toNat_sub_of_le _ _ (UInt8.le_iff_toNat_le.mpr h)

/-- What is written for a frame that fits is the frame, in either form. -/
theorem FrameBytes.of_fits (long : Bool) {frame : StackMapFrame} (h : frame.Fits) :
    FrameBytes (frame.encode long) frame := by
  cases frame with
  | same delta =>
    rw [StackMapFrame.encode]
    split
    case isTrue => exact .sameExtended delta
    case isFalse hshort =>
      have hnumber : (UInt8.ofNat delta.toNat).toNat = delta.toNat :=
        UInt8.toNat_ofNat_of_lt' (by simp [UInt8.size]; omega)
      have hdelta : (UInt8.ofNat delta.toNat).toUInt16 = delta :=
        UInt16.toNat_inj.mp (by rw [UInt8.toNat_toUInt16, hnumber])
      have hframe : FrameBytes [UInt8.ofNat delta.toNat]
          (.same (UInt8.ofNat delta.toNat).toUInt16) := .same (by omega)
      rwa [hdelta] at hframe
  | sameLocalsOneStack delta stack =>
    rw [StackMapFrame.encode]
    split
    case isTrue => exact .sameLocalsOneStackExtended delta rfl
    case isFalse hshort =>
      have hnumber : (UInt8.ofNat (64 + delta.toNat)).toNat = 64 + delta.toNat :=
        UInt8.toNat_ofNat_of_lt' (by simp [UInt8.size]; omega)
      have hle : (64 : UInt8) ≤ UInt8.ofNat (64 + delta.toNat) := by
        rw [UInt8.le_iff_toNat_le, hnumber]
        exact Nat.le_add_right 64 delta.toNat
      have hdelta : (UInt8.ofNat (64 + delta.toNat) - 64).toUInt16 = delta := by
        apply UInt16.toNat_inj.mp
        rw [UInt8.toNat_toUInt16, UInt8.toNat_sub_of_le _ _ hle, hnumber]
        exact Nat.add_sub_cancel_left 64 delta.toNat
      have hframe : FrameBytes (UInt8.ofNat (64 + delta.toNat) :: stack.encode)
          (.sameLocalsOneStack (UInt8.ofNat (64 + delta.toNat) - 64).toUInt16 stack) :=
        .sameLocalsOneStack (by omega) (by omega) rfl
      rwa [hdelta] at hframe
  | chop delta absentLocals =>
    obtain ⟨hone, hthree⟩ := h
    have hnumber := toNat_sub_of_chop absentLocals (by omega)
    have habsent : 251 - (251 - absentLocals) = absentLocals := by grind
    have hframe : FrameBytes ((251 - absentLocals) :: word16 delta)
        (.chop delta (251 - (251 - absentLocals))) := .chop (by omega) (by omega) delta
    rwa [habsent] at hframe
  | append delta locals =>
    obtain ⟨hone, hthree⟩ := h
    have hnumber : (UInt8.ofNat (251 + locals.length)).toNat = 251 + locals.length :=
      UInt8.toNat_ofNat_of_lt' (by simp [UInt8.size]; omega)
    exact .append (by omega) (by omega) delta (by omega)
      ((rows_eq_iff VerificationType.encode _ locals).mpr rfl)
  | full delta locals stack =>
    obtain ⟨hlocals, hstack⟩ := h
    exact .full delta (VerificationType.table_hasOneSpelling.encode_of_fits hlocals)
      (VerificationType.table_hasOneSpelling.encode_of_fits hstack)

/-- The bytes of a frame are those that are written for it in one of its forms. -/
theorem frameBytes_iff (bytes : List UInt8) (frame : StackMapFrame) :
    FrameBytes bytes frame ↔ frame.Fits ∧ ∃ long, bytes = frame.encode long := by
  constructor
  · intro h
    cases h with
    | @same number hlt =>
      have hdelta : number.toUInt16.toNat = number.toNat := UInt8.toNat_toUInt16 number
      refine ⟨trivial, false, ?_⟩
      rw [StackMapFrame.encode, hdelta, if_neg (by simpa using hlt), UInt8.ofNat_toNat]
    | @sameLocalsOneStack number stack bytes hle hlt behind =>
      obtain rfl : bytes = stack.encode := behind
      have hdelta : (number - 64).toUInt16.toNat = number.toNat - 64 := by
        have hword : (64 : UInt8) ≤ number := UInt8.le_iff_toNat_le.mpr (by simpa using hle)
        rw [UInt8.toNat_toUInt16, UInt8.toNat_sub_of_le _ _ hword]
        rfl
      refine ⟨trivial, false, ?_⟩
      rw [StackMapFrame.encode, hdelta, if_neg (by simp; omega), Nat.add_sub_cancel' hle,
        UInt8.ofNat_toNat]
    | @sameLocalsOneStackExtended stack bytes delta behind =>
      obtain rfl : bytes = stack.encode := behind
      exact ⟨trivial, true, rfl⟩
    | @chop number hle hlt delta =>
      have habsent := toNat_sub_of_chop number (by omega)
      have hnumber : 251 - (251 - number) = number := by grind
      refine ⟨⟨by omega, by omega⟩, false, ?_⟩
      rw [StackMapFrame.encode, hnumber]
    | sameExtended delta => exact ⟨trivial, true, rfl⟩
    | @append number locals bytes hle hlt delta hlength hrows =>
      obtain rfl := (rows_eq_iff VerificationType.encode bytes locals).mp hrows
      refine ⟨⟨by omega, by omega⟩, false, ?_⟩
      have hnumber : UInt8.ofNat (251 + locals.length) = number := by
        rw [hlength, Nat.add_sub_cancel' (by omega), UInt8.ofNat_toNat]
      rw [StackMapFrame.encode, hnumber]
    | full delta localsTable stackTable =>
      obtain ⟨rfl, hlocals⟩ := (VerificationType.table_hasOneSpelling _ _).mp localsTable
      obtain ⟨rfl, hstack⟩ := (VerificationType.table_hasOneSpelling _ _).mp stackTable
      exact ⟨⟨hlocals, hstack⟩, false, rfl⟩
  · rintro ⟨hfits, long, rfl⟩
    exact .of_fits long hfits

end MonitorAudit
