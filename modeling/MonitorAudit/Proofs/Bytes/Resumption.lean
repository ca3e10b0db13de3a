import MonitorAudit.Proofs.Bytes.Failure

/-!
# Reads that go on when the missing bytes are there

A decoder that asks for bytes stopped at a read of which only the first bytes are there.
`decoder.RunsOut cursor offset missing` says so without looking into the decoder: with fewer than
`missing` bytes put behind the buffer it still asks at the same offset for what is then missing of
them, and with so many it no longer asks for bytes at that offset, or in front of it.

A decoder is `Resumable` if it is `Incremental` and gets past a read as soon as the bytes are there
that it asked for. The notion is closed under sequencing, repetition and rewording of faults. For
such a decoder the number of bytes that it asks for is the number that is missing
(`Resumable.runsOut_iff_asks`).
-/

set_option autoImplicit false

namespace MonitorAudit.Decoder

variable {ε φ α β : Type} [ToEndOfData ε]

/-- The decoder fails at the cursor with a fault that asks for bytes. -/
def Asks (decoder : Decoder ε α) (cursor : Cursor) (failure : EndOfData) : Prop :=
  ∃ fault, decoder.FailsWith cursor fault ∧ endOfData? fault = some failure

/-- The decoder comes to a read at the offset of whose bytes just so many are not there, and which
it gets past when they are. -/
structure RunsOut (decoder : Decoder ε α) (cursor : Cursor) (offset missing : Nat) : Prop where
  le_offset : cursor.position ≤ offset
  offset_le : offset ≤ cursor.stop
  one_le : 1 ≤ missing
  asks : ∀ more : List UInt8, more.length < missing →
    decoder.Asks (cursor.extend more) ⟨offset, missing - more.length⟩
  resumes : ∀ (more : List UInt8) (failure : EndOfData), missing ≤ more.length →
    decoder.Asks (cursor.extend more) failure → offset < failure.offset

/-- The outcome is met at the offset or behind it: that is where the bytes of the value end, or
where bytes are asked for. -/
def IsMetFrom (offset : Nat) (outcome : Except ε α × Cursor) : Prop :=
  match outcome with
  | (.ok _, left) => offset ≤ left.position
  | (.error fault, _) => ∀ failure, endOfData? fault = some failure → offset ≤ failure.offset

theorem IsMetFrom.trans {offset later : Nat} (hle : offset ≤ later)
    {outcome : Except ε α × Cursor} (h : IsMetFrom later outcome) : IsMetFrom offset outcome := by
  obtain ⟨result, left⟩ := outcome
  cases result with
  | ok value => exact Nat.le_trans hle h
  | error fault => exact fun failure hfailure ↦ Nat.le_trans hle (h failure hfailure)

/-- A decoder that reads from a stream, and gets past a read as soon as its bytes are there. -/
structure Resumable (decoder : Decoder ε α) : Prop extends Incremental decoder where
  isMetFrom : ∀ cursor, IsMetFrom cursor.position (decoder cursor)
  resumes : ∀ cursor failure, decoder.Asks cursor failure → ∀ more : List UInt8,
    failure.wanted ≤ more.length →
      IsMetFrom (failure.offset + 1) (decoder (cursor.extend more))

namespace Resumable

/-- A decoder that never looks at the bytes is resumable, if it does not ask for any. -/
theorem of_still {decoder : Decoder ε α} (result : Nat → Except ε α)
    (hdecoder : ∀ cursor, decoder cursor = (result cursor.position, cursor))
    (hresult : ∀ position fault, result position = .error fault → endOfData? fault = none) :
    Resumable decoder := by
  refine { Incremental.of_still result hdecoder hresult with isMetFrom := ?_, resumes := ?_ }
  · intro cursor
    rw [hdecoder]
    cases hfound : result cursor.position with
    | ok value => exact Nat.le_refl _
    | error fault =>
      intro failure hfailure
      rw [hresult _ _ hfound] at hfailure
      simp at hfailure
  · rintro cursor failure ⟨fault, hfault, hfailure⟩
    rw [FailsWith, hdecoder] at hfault
    rw [hresult _ _ hfault] at hfailure
    simp at hfailure

theorem pure (value : α) : Resumable (Pure.pure value : Decoder ε α) :=
  of_still (fun _ ↦ .ok value) (fun _ ↦ rfl) (by simp)

theorem position : Resumable (Decoder.position : Decoder ε Nat) :=
  of_still .ok (fun _ ↦ rfl) (by simp)

theorem fail {fault : ε} (h : endOfData? fault = none) :
    Resumable (Decoder.fail fault : Decoder ε α) :=
  of_still (fun _ ↦ .error fault) (fun _ ↦ rfl) (by simpa using h)

/-- What follows a value is met behind it. -/
theorem isMetFrom_bind {first : Decoder ε α} {next : α → Decoder ε β}
    (hnext : ∀ value, Resumable (next value)) {offset : Nat} {cursor : Cursor}
    (h : IsMetFrom offset (first cursor)) : IsMetFrom offset ((first >>= next) cursor) := by
  rw [bind_apply]
  cases hfirst : first cursor with
  | mk result between =>
    rw [hfirst] at h
    cases result with
    | error fault => exact h
    | ok value => exact ((hnext value).isMetFrom between).trans h

theorem bind {first : Decoder ε α} {next : α → Decoder ε β} (hfirst : Resumable first)
    (hnext : ∀ value, Resumable (next value)) : Resumable (first >>= next) := by
  have hboth := hfirst.toIncremental.bind fun value ↦ (hnext value).toIncremental
  refine { hboth with isMetFrom := ?_, resumes := ?_ }
  · intro cursor
    exact isMetFrom_bind hnext (hfirst.isMetFrom cursor)
  · rintro cursor failure ⟨fault, hfault, hfailure⟩ more hmore
    rcases failsWith_bind_iff.mp hfault with hfault | ⟨middle, between, hbetween, hfault⟩
    · have hmet := hfirst.resumes cursor failure ⟨fault, hfault, hfailure⟩ more hmore
      exact isMetFrom_bind hnext hmet
    · -- The first part ends as before, and the second gets past the read.
      have hlonger := (hfirst.of_ok cursor middle between hbetween).2 more
      rw [bind_apply, hlonger]
      exact (hnext middle).resumes between failure ⟨fault, hfault, hfailure⟩ more hmore

theorem map {decoder : Decoder ε α} (h : Resumable decoder) (f : α → β) :
    Resumable (f <$> decoder) :=
  h.bind fun _ ↦ .pure _

theorem ite {condition : Prop} [Decidable condition] {yes no : Decoder ε α}
    (hyes : Resumable yes) (hno : Resumable no) : Resumable (if condition then yes else no) := by
  split
  · exact hyes
  · exact hno

theorem times {decoder : Decoder ε α} (h : Resumable decoder) (count : Nat) :
    Resumable (Decoder.times count decoder) := by
  induction count with
  | zero => exact .pure _
  | succ count ih =>
    rw [times_succ]
    exact h.bind fun _ ↦ ih.map _

/-! ### Bytes, words and tables -/

section Words

variable [OfEndOfData ε] [LawfulEndOfData ε]

theorem take (count : Nat) : Resumable (Decoder.take count : Decoder ε (List UInt8)) := by
  refine { Incremental.take count with isMetFrom := ?_, resumes := ?_ }
  · intro cursor
    by_cases hcount : count ≤ cursor.remaining
    · rw [take_eq_ok_iff.mpr ⟨hcount, rfl, rfl⟩]
      exact Nat.le_add_right _ _
    · rw [take_eq_error_iff.mpr ⟨Nat.lt_of_not_le hcount, rfl, rfl⟩]
      intro failure hfailure
      rw [endOfData?_ofEndOfData] at hfailure
      obtain rfl := Option.some.inj hfailure
      exact Nat.le_refl _
  · rintro cursor failure ⟨fault, hfault, hfailure⟩ more hmore
    obtain ⟨hcount, rfl⟩ := failsWith_take_iff.mp hfault
    rw [endOfData?_ofEndOfData] at hfailure
    obtain rfl := Option.some.inj hfailure
    have hthere : count ≤ (cursor.extend more).remaining := by
      rw [Cursor.remaining_extend]
      exact Nat.sub_le_iff_le_add'.mp hmore
    rw [take_eq_ok_iff.mpr ⟨hthere, rfl, rfl⟩]
    show cursor.position + 1 ≤ cursor.position + count
    omega

theorem u8 : Resumable (Decoder.u8 : Decoder ε UInt8) := (take 1).map _

theorem u16 : Resumable (Decoder.u16 : Decoder ε UInt16) := (take 2).map _

theorem u32 : Resumable (Decoder.u32 : Decoder ε UInt32) := (take 4).map _

theorem counted8 {decoder : Decoder ε α} (h : Resumable decoder) :
    Resumable (Decoder.counted8 decoder) :=
  u8.bind fun count ↦ h.times count.toNat

theorem counted16 {decoder : Decoder ε α} (h : Resumable decoder) :
    Resumable (Decoder.counted16 decoder) :=
  u16.bind fun count ↦ h.times count.toNat

end Words

/-! ### What is missing -/

variable {decoder : Decoder ε α} {cursor : Cursor} {offset missing : Nat}

/-- The bytes that are asked for are those that are missing of a read. -/
theorem runsOut_iff_asks (h : Resumable decoder) :
    decoder.RunsOut cursor offset missing ↔ decoder.Asks cursor ⟨offset, missing⟩ := by
  constructor
  · intro hruns
    have hasks := hruns.asks [] hruns.one_le
    rwa [Cursor.extend, List.append_nil] at hasks
  · rintro ⟨fault, hfault, hfailure⟩
    obtain ⟨left, hdecoder⟩ := failsWith_iff.mp hfault
    obtain ⟨hstop, hone⟩ := h.asks cursor fault left ⟨offset, missing⟩ hdecoder hfailure
    have hmet := h.isMetFrom cursor
    rw [hdecoder] at hmet
    refine ⟨hmet _ hfailure, hstop, hone, ?_, ?_⟩
    · intro more hmore
      obtain ⟨later, there, hlater, hleft⟩ :=
        h.waits cursor fault left ⟨offset, missing⟩ hdecoder hfailure more hmore
      exact ⟨later, failsWith_iff.mpr ⟨there, hlater⟩, hleft⟩
    · rintro more failure hmore ⟨later, hlater, hleft⟩
      have hmet := h.resumes cursor ⟨offset, missing⟩ ⟨fault, hfault, hfailure⟩ more hmore
      obtain ⟨there, hthere⟩ := failsWith_iff.mp hlater
      rw [hthere] at hmet
      exact hmet failure hleft

end Resumable

end MonitorAudit.Decoder
