import MonitorAudit.Proofs.Bytes.Extension
import MonitorAudit.Proofs.Bytes.Format

/-!
# Where decoders fail

`decoder.FailsWith cursor fault` says that the decoder fails at the cursor, whatever cursor it then
leaves. A sequence fails in one of its parts, behind parts that succeed (`failsWith_bind_iff`), and
a repetition in one of its rows, behind rows that succeed (`failsWith_times_iff`).

`Lacks form bytes` says that the bytes do not begin with bytes of a format. A decoder that reads a
format fails exactly where the format is lacking (`Reads.fails_iff_lacks`).
-/

set_option autoImplicit false

namespace MonitorAudit

/-- The bytes do not begin with bytes of the form. -/
def Lacks {α : Type} (form : List UInt8 → α → Prop) (bytes : List UInt8) : Prop :=
  ∀ used tail value, bytes = used ++ tail → ¬ form used value

namespace Decoder

variable {ε φ α β : Type}

/-- The decoder fails at the cursor with the fault. -/
def FailsWith (decoder : Decoder ε α) (cursor : Cursor) (fault : ε) : Prop :=
  (decoder cursor).1 = .error fault

theorem failsWith_iff {decoder : Decoder ε α} {cursor : Cursor} {fault : ε} :
    decoder.FailsWith cursor fault ↔ ∃ left, decoder cursor = (.error fault, left) := by
  constructor
  · intro h
    exact ⟨_, Prod.ext h rfl⟩
  · rintro ⟨left, h⟩
    exact congrArg Prod.fst h

theorem not_failsWith_of_ok {decoder : Decoder ε α} {cursor left : Cursor} {value : α}
    (h : decoder cursor = (.ok value, left)) (fault : ε) : ¬ decoder.FailsWith cursor fault := by
  rw [FailsWith, h]
  simp

/-! ### Decoders and their parts -/

@[simp] theorem not_failsWith_pure (value : α) (cursor : Cursor) (fault : ε) :
    ¬ (pure value : Decoder ε α).FailsWith cursor fault :=
  not_failsWith_of_ok rfl fault

@[simp] theorem not_failsWith_position (cursor : Cursor) (fault : ε) :
    ¬ (position : Decoder ε Nat).FailsWith cursor fault :=
  not_failsWith_of_ok rfl fault

@[simp] theorem failsWith_fail_iff {fault found : ε} {cursor : Cursor} :
    (fail fault : Decoder ε α).FailsWith cursor found ↔ fault = found :=
  Except.error.injEq fault found ▸ Iff.rfl

@[simp] theorem failsWith_ofExcept_iff {result : Except ε α} {fault : ε} {cursor : Cursor} :
    (ofExcept result).FailsWith cursor fault ↔ result = .error fault :=
  Iff.rfl

/-- A sequence fails in its first part, or in its second part behind the first. -/
theorem failsWith_bind_iff {first : Decoder ε α} {next : α → Decoder ε β} {cursor : Cursor}
    {fault : ε} : (first >>= next).FailsWith cursor fault ↔
      first.FailsWith cursor fault ∨ ∃ middle between, first cursor = (.ok middle, between) ∧
        (next middle).FailsWith between fault := by
  simp only [FailsWith, bind_apply]
  cases first cursor with
  | mk result moved => cases result <;> simp [and_assoc]

theorem failsWith_map_iff {decoder : Decoder ε α} {f : α → β} {cursor : Cursor} {fault : ε} :
    (f <$> decoder).FailsWith cursor fault ↔ decoder.FailsWith cursor fault := by
  simp only [FailsWith, map_apply]
  cases decoder cursor with
  | mk result moved => cases result <;> simp

theorem failsWith_mapFault_iff {decoder : Decoder ε α} {f : ε → φ} {cursor : Cursor} {fault : φ} :
    (decoder.mapFault f).FailsWith cursor fault ↔
      ∃ inner, decoder.FailsWith cursor inner ∧ f inner = fault := by
  simp only [FailsWith, mapFault]
  cases decoder cursor with
  | mk result moved => cases result <;> simp

/-- A repetition fails in one of its rows, behind rows that succeed. -/
theorem failsWith_times_iff {row : Decoder ε α} {count : Nat} {cursor : Cursor} {fault : ε} :
    (times count row).FailsWith cursor fault ↔ ∃ place rows site, place < count ∧
      times place row cursor = (.ok rows, site) ∧ row.FailsWith site fault := by
  induction count generalizing cursor with
  | zero => simp
  | succ count ih =>
    rw [times_succ, failsWith_bind_iff]
    constructor
    · rintro (hfirst | ⟨first, between, hfirst, hrest⟩)
      · exact ⟨0, [], cursor, Nat.succ_pos count, rfl, hfirst⟩
      · obtain ⟨place, rows, site, hplace, hrows, hsite⟩ :=
          ih.mp ((failsWith_bind_iff.mp hrest).resolve_right (by simp))
        refine ⟨place + 1, first :: rows, site, Nat.succ_lt_succ hplace, ?_, hsite⟩
        rw [times_succ]
        exact bind_eq_ok_iff.mpr ⟨first, between, hfirst, bind_eq_ok_iff.mpr ⟨_, _, hrows, rfl⟩⟩
    · rintro ⟨place, rows, site, hplace, hrows, hsite⟩
      cases place with
      | zero =>
        obtain ⟨-, rfl⟩ : _ ∧ cursor = site := by simpa using hrows
        exact .inl hsite
      | succ place =>
        rw [times_succ] at hrows
        obtain ⟨first, between, hfirst, hbehind⟩ := bind_eq_ok_iff.mp hrows
        obtain ⟨others, last, hothers, hpure⟩ := bind_eq_ok_iff.mp hbehind
        obtain ⟨-, rfl⟩ : _ ∧ last = site := by simpa using hpure
        refine .inr ⟨first, between, hfirst, failsWith_bind_iff.mpr (.inl (ih.mpr ?_))⟩
        exact ⟨place, others, last, Nat.lt_of_succ_lt_succ hplace, hothers, hsite⟩

section Words

variable [OfEndOfData ε] {cursor : Cursor} {fault : ε}

/-- The fault of a read of so many bytes, of which some are not there. -/
def IsShort (cursor : Cursor) (count : Nat) (fault : ε) : Prop :=
  cursor.remaining < count ∧ fault = ofEndOfData ⟨cursor.position, count - cursor.remaining⟩

theorem failsWith_take_iff {count : Nat} :
    (take count : Decoder ε (List UInt8)).FailsWith cursor fault ↔ IsShort cursor count fault := by
  rw [failsWith_iff, IsShort]
  simp only [take_eq_error_iff]
  simp

theorem failsWith_window_iff {count : Nat} :
    (window count : Decoder ε Cursor).FailsWith cursor fault ↔ IsShort cursor count fault := by
  rw [window, failsWith_bind_iff]
  simp [position, failsWith_map_iff, failsWith_take_iff]

theorem failsWith_u8_iff :
    (u8 : Decoder ε UInt8).FailsWith cursor fault ↔ IsShort cursor 1 fault :=
  failsWith_map_iff.trans failsWith_take_iff

theorem failsWith_u16_iff :
    (u16 : Decoder ε UInt16).FailsWith cursor fault ↔ IsShort cursor 2 fault :=
  failsWith_map_iff.trans failsWith_take_iff

theorem failsWith_u32_iff :
    (u32 : Decoder ε UInt32).FailsWith cursor fault ↔ IsShort cursor 4 fault :=
  failsWith_map_iff.trans failsWith_take_iff

end Words

/-! ### Formats that are lacking -/

/-- A decoder fails exactly where its format is lacking. -/
theorem Reads.fails_iff_lacks {decoder : Decoder ε α} {form : List UInt8 → α → Prop}
    (h : Reads decoder fun _ ↦ form) (cursor : Cursor) :
    (∃ fault, decoder.FailsWith cursor fault) ↔ Lacks form cursor.rest := by
  constructor
  · rintro ⟨fault, hfault⟩ used tail value hrest hform
    obtain ⟨rest, start⟩ := cursor
    obtain rfl : rest = used ++ tail := hrest
    exact not_failsWith_of_ok (h.run start hform tail) fault hfault
  · intro hlacks
    cases hdecoder : decoder cursor with
    | mk result left =>
      cases result with
      | error fault => exact ⟨fault, congrArg Prod.fst hdecoder⟩
      | ok value =>
        obtain ⟨used, hform, hrest, -⟩ := (h cursor value left).mp hdecoder
        exact absurd hform (hlacks used left.rest value hrest)

/-- Where its format is lacking a decoder fails, wherever the bytes stand. -/
theorem Reads.exists_failsWith {decoder : Decoder ε α} {form : List UInt8 → α → Prop}
    (h : Reads decoder fun _ ↦ form) {bytes : List UInt8} (hlacks : Lacks form bytes)
    (position : Nat) : ∃ fault, decoder.FailsWith ⟨bytes, position⟩ fault :=
  (h.fails_iff_lacks ⟨bytes, position⟩).mpr hlacks

end Decoder

end MonitorAudit
