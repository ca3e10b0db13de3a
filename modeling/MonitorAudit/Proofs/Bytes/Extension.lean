import MonitorAudit.Bytes.Decoder

/-!
# More bytes behind a buffer

A decoder is `Incremental` if it answers a longer buffer as a reader of a stream would. What it
answers is final unless it asks for more bytes, and while it is given fewer bytes than it asks for
it goes on asking for the rest of them at the same place. `endOfData?` tells the faults that ask
for bytes from the others.

The notion is closed under sequencing (`Incremental.bind`), repetition and rewording of faults.
Once a payload is split off whole (`Incremental.window`), what is made of it is final, and so it
must not end in a fault that asks for bytes.

`Incremental.asks_of_append` turns the notion around: where a decoder succeeds on some bytes, a part
of them that ends too soon makes it ask for bytes, and for no more than are missing.
-/

set_option autoImplicit false

namespace MonitorAudit

/-! ### Faults that ask for bytes -/

/-- The kinds of fault of which some say that the data ended too soon. -/
class ToEndOfData (ε : Type) where
  /-- Where bytes are missing and how many, if that is the fault. -/
  endOfData? : ε → Option EndOfData

export ToEndOfData (endOfData?)

/-- The fault for a read past the end says just that. -/
class LawfulEndOfData (ε : Type) [OfEndOfData ε] [ToEndOfData ε] : Prop where
  endOfData?_ofEndOfData : ∀ failure : EndOfData, endOfData? (ofEndOfData failure : ε) = failure

export LawfulEndOfData (endOfData?_ofEndOfData)

/-! ### Longer buffers -/

/-- The cursor in the same place of a buffer with more bytes at its end. -/
def Cursor.extend (cursor : Cursor) (more : List UInt8) : Cursor :=
  ⟨cursor.rest ++ more, cursor.position⟩

/-- The offset of the end of the buffer. -/
def Cursor.stop (cursor : Cursor) : Nat := cursor.position + cursor.remaining

@[simp] theorem Cursor.remaining_extend (cursor : Cursor) (more : List UInt8) :
    (cursor.extend more).remaining = cursor.remaining + more.length := by
  simp [extend, remaining]

theorem Cursor.stop_advance {cursor : Cursor} {count : Nat} (h : count ≤ cursor.remaining) :
    (cursor.advance count).stop = cursor.stop := by
  rw [stop, remaining_advance, advance, stop]
  simp only
  omega

/-- The other cursor is over the same buffer, further on or in the same place. -/
def Cursor.LeadsTo (cursor left : Cursor) : Prop :=
  ∃ count ≤ cursor.remaining, left = cursor.advance count

namespace Cursor.LeadsTo

variable {cursor between left : Cursor}

theorem refl (cursor : Cursor) : cursor.LeadsTo cursor :=
  ⟨0, Nat.zero_le _, (Cursor.advance_zero cursor).symm⟩

theorem trans (hfirst : cursor.LeadsTo between) (hsecond : between.LeadsTo left) :
    cursor.LeadsTo left := by
  obtain ⟨count, hcount, rfl⟩ := hfirst
  obtain ⟨more, hmore, rfl⟩ := hsecond
  rw [Cursor.remaining_advance] at hmore
  exact ⟨count + more, by omega, Cursor.advance_advance _ _ _⟩

theorem position_le (h : cursor.LeadsTo left) : cursor.position ≤ left.position := by
  obtain ⟨count, -, rfl⟩ := h
  exact Nat.le_add_right _ _

theorem stop_eq (h : cursor.LeadsTo left) : left.stop = cursor.stop := by
  obtain ⟨count, hcount, rfl⟩ := h
  exact Cursor.stop_advance hcount

end Cursor.LeadsTo

/-- The unread bytes are bytes of the file, at the offset of the cursor. -/
def Cursor.StandsIn (cursor : Cursor) (bytes : List UInt8) : Prop :=
  cursor.rest <+: bytes.drop cursor.position

namespace Cursor

variable {cursor : Cursor} {bytes : List UInt8}

theorem standsIn_ofBytes (bytes : List UInt8) : (ofBytes bytes).StandsIn bytes :=
  List.prefix_rfl

theorem StandsIn.of_leadsTo (h : cursor.StandsIn bytes) {left : Cursor}
    (hleft : cursor.LeadsTo left) : left.StandsIn bytes := by
  obtain ⟨behind, hbehind⟩ := h
  obtain ⟨count, -, rfl⟩ := hleft
  refine ⟨behind.drop (count - cursor.rest.length), ?_⟩
  rw [Cursor.advance, ← List.drop_drop, ← hbehind, List.drop_append]

end Cursor

theorem Cursor.advance_extend {cursor : Cursor} {count : Nat} (h : count ≤ cursor.remaining)
    (more : List UInt8) :
    (cursor.extend more).advance count = (cursor.advance count).extend more := by
  have hrest : count ≤ cursor.rest.length := h
  simp only [extend, advance, List.drop_append_of_le_length hrest]

namespace Decoder

variable {ε φ α β : Type}

theorem bind_eq_ok_iff {first : Decoder ε α} {next : α → Decoder ε β} {cursor left : Cursor}
    {value : β} : (first >>= next) cursor = (.ok value, left) ↔
      ∃ middle between, first cursor = (.ok middle, between) ∧
        next middle between = (.ok value, left) := by
  rw [bind_apply]
  cases hfirst : first cursor with
  | mk result moved => cases result <;> simp [and_assoc]

theorem bind_eq_error_iff {first : Decoder ε α} {next : α → Decoder ε β} {cursor left : Cursor}
    {fault : ε} : (first >>= next) cursor = (.error fault, left) ↔
      first cursor = (.error fault, left) ∨
      ∃ middle between, first cursor = (.ok middle, between) ∧
        next middle between = (.error fault, left) := by
  rw [bind_apply]
  cases hfirst : first cursor with
  | mk result moved => cases result <;> simp [and_assoc]

theorem mapFault_eq_ok_iff {decoder : Decoder ε α} {f : ε → φ} {cursor left : Cursor} {value : α} :
    decoder.mapFault f cursor = (.ok value, left) ↔ decoder cursor = (.ok value, left) := by
  rw [mapFault]
  cases hdecoder : decoder cursor with
  | mk result moved => cases result <;> simp

theorem mapFault_eq_error_iff {decoder : Decoder ε α} {f : ε → φ} {cursor left : Cursor}
    {fault : φ} : decoder.mapFault f cursor = (.error fault, left) ↔
      ∃ inner, decoder cursor = (.error inner, left) ∧ f inner = fault := by
  rw [mapFault]
  cases hdecoder : decoder cursor with
  | mk result moved => cases result <;> simp [← and_assoc, and_comm]

section

variable [OfEndOfData ε] {cursor left : Cursor} {count : Nat}

theorem take_eq_ok_iff {taken : List UInt8} :
    (take count : Decoder ε (List UInt8)) cursor = (.ok taken, left) ↔
      count ≤ cursor.remaining ∧ taken = cursor.rest.take count ∧ left = cursor.advance count := by
  rw [take, ← Cursor.splitAt?_eq_ok_iff]
  cases cursor.splitAt? count <;> simp [Prod.ext_iff]

theorem take_eq_error_iff {fault : ε} :
    (take count : Decoder ε (List UInt8)) cursor = (.error fault, left) ↔
      cursor.remaining < count ∧
        fault = ofEndOfData ⟨cursor.position, count - cursor.remaining⟩ ∧ left = cursor := by
  by_cases hcount : count ≤ cursor.remaining
  · simp [take, Cursor.splitAt?_of_le hcount, Nat.not_lt.mpr hcount]
  · have hcount := Nat.lt_of_not_le hcount
    simp [take, Cursor.splitAt?_of_lt hcount, hcount, eq_comm]

end

variable [ToEndOfData ε]

/-- A decoder whose answers to longer buffers are those of a reader of a stream. -/
structure Incremental (decoder : Decoder ε α) : Prop where
  /-- A value is final, and it is read from bytes that are there. -/
  of_ok : ∀ cursor value left, decoder cursor = (.ok value, left) →
    left.stop = cursor.stop ∧
      ∀ more, decoder (cursor.extend more) = (.ok value, left.extend more)
  /-- A fault that does not ask for bytes is final. -/
  of_error : ∀ cursor fault left, decoder cursor = (.error fault, left) →
    endOfData? fault = none →
      ∀ more, decoder (cursor.extend more) = (.error fault, left.extend more)
  /-- At least one byte is asked for, and nowhere behind the end of the buffer. -/
  asks : ∀ cursor fault left failure, decoder cursor = (.error fault, left) →
    endOfData? fault = some failure → failure.offset ≤ cursor.stop ∧ 1 ≤ failure.wanted
  /-- Fewer bytes than were asked for leave the decoder asking for the others. -/
  waits : ∀ cursor fault left failure, decoder cursor = (.error fault, left) →
    endOfData? fault = some failure → ∀ more : List UInt8, more.length < failure.wanted →
      ∃ later there, decoder (cursor.extend more) = (.error later, there) ∧
        endOfData? later = some ⟨failure.offset, failure.wanted - more.length⟩

namespace Incremental

/-- A decoder that never looks at the bytes, if it does not ask for any. -/
theorem of_still {decoder : Decoder ε α} (result : Nat → Except ε α)
    (hdecoder : ∀ cursor, decoder cursor = (result cursor.position, cursor))
    (hresult : ∀ position fault, result position = .error fault → endOfData? fault = none) :
    Incremental decoder := by
  have hmore {cursor left : Cursor} {found : Except ε α} (h : decoder cursor = (found, left))
      (more : List UInt8) : decoder (cursor.extend more) = (found, left.extend more) := by
    rw [hdecoder] at h ⊢
    obtain ⟨rfl, rfl⟩ := Prod.mk.inj h
    rfl
  have hquiet {cursor left : Cursor} {fault : ε} (h : decoder cursor = (.error fault, left)) :
      endOfData? fault = none := by
    rw [hdecoder] at h
    exact hresult cursor.position fault (Prod.mk.inj h).1
  constructor
  case of_ok =>
    intro cursor value left h
    refine ⟨?_, hmore h⟩
    rw [hdecoder] at h
    rw [(Prod.mk.inj h).2]
  case of_error =>
    intro cursor fault left h _
    exact hmore h
  all_goals
    intro cursor fault left failure h hfailure
    simp [hquiet h] at hfailure

theorem pure (value : α) : Incremental (Pure.pure value : Decoder ε α) :=
  of_still (fun _ ↦ .ok value) (fun _ ↦ rfl) (by simp)

theorem position : Incremental (Decoder.position : Decoder ε Nat) :=
  of_still .ok (fun _ ↦ rfl) (by simp)

theorem ofExcept {result : Except ε α}
    (h : ∀ fault, result = .error fault → endOfData? fault = none) :
    Incremental (Decoder.ofExcept result) :=
  of_still (fun _ ↦ result) (fun _ ↦ rfl) fun _ ↦ h

theorem fail {fault : ε} (h : endOfData? fault = none) :
    Incremental (Decoder.fail fault : Decoder ε α) :=
  of_still (fun _ ↦ .error fault) (fun _ ↦ rfl) (by simpa using h)

/-- A computation whose faults are reworded as faults that ask for no bytes asks for none. -/
theorem mapError {result : Except φ α} {f : φ → ε} (h : ∀ fault, endOfData? (f fault) = none) :
    Incremental (Decoder.ofExcept (result.mapError f)) := by
  cases result with
  | ok value => exact of_still (fun _ ↦ .ok value) (fun _ ↦ rfl) (by simp)
  | error fault => exact fail (h fault)

theorem bind {first : Decoder ε α} {next : α → Decoder ε β} (hfirst : Incremental first)
    (hnext : ∀ value, Incremental (next value)) : Incremental (first >>= next) := by
  constructor
  case of_ok =>
    intro cursor value left h
    obtain ⟨middle, between, hbetween, hlast⟩ := bind_eq_ok_iff.mp h
    obtain ⟨hstop, hmore⟩ := hfirst.of_ok cursor middle between hbetween
    obtain ⟨hstop', hmore'⟩ := (hnext middle).of_ok between value left hlast
    exact ⟨hstop'.trans hstop, fun more ↦ bind_eq_ok_iff.mpr ⟨_, _, hmore more, hmore' more⟩⟩
  case of_error =>
    intro cursor fault left h hfault more
    rw [bind_eq_error_iff] at h ⊢
    rcases h with h | ⟨middle, between, hbetween, hlast⟩
    · exact .inl (hfirst.of_error cursor fault left h hfault more)
    · exact .inr ⟨_, _, (hfirst.of_ok cursor middle between hbetween).2 more,
        (hnext middle).of_error between fault left hlast hfault more⟩
  case asks =>
    intro cursor fault left failure h hfailure
    rcases bind_eq_error_iff.mp h with h | ⟨middle, between, hbetween, hlast⟩
    · exact hfirst.asks cursor fault left failure h hfailure
    · rw [← (hfirst.of_ok cursor middle between hbetween).1]
      exact (hnext middle).asks between fault left failure hlast hfailure
  case waits =>
    intro cursor fault left failure h hfailure more hmore
    rcases bind_eq_error_iff.mp h with h | ⟨middle, between, hbetween, hlast⟩
    · obtain ⟨later, there, hlater, hleft⟩ :=
        hfirst.waits cursor fault left failure h hfailure more hmore
      exact ⟨later, there, bind_eq_error_iff.mpr (.inl hlater), hleft⟩
    · obtain ⟨later, there, hlater, hleft⟩ :=
        (hnext middle).waits between fault left failure hlast hfailure more hmore
      exact ⟨later, there, bind_eq_error_iff.mpr
        (.inr ⟨_, _, (hfirst.of_ok cursor middle between hbetween).2 more, hlater⟩), hleft⟩

theorem map {decoder : Decoder ε α} (h : Incremental decoder) (f : α → β) :
    Incremental (f <$> decoder) :=
  h.bind fun _ ↦ .pure _

/-- Faults may be reworded if the rewording keeps what they ask for. -/
theorem mapFault [ToEndOfData φ] {decoder : Decoder ε α} (h : Incremental decoder) {f : ε → φ}
    (hf : ∀ fault, endOfData? (f fault) = endOfData? fault) : Incremental (decoder.mapFault f) := by
  constructor
  case of_ok =>
    intro cursor value left hvalue
    obtain ⟨hstop, hmore⟩ := h.of_ok cursor value left (mapFault_eq_ok_iff.mp hvalue)
    exact ⟨hstop, fun more ↦ mapFault_eq_ok_iff.mpr (hmore more)⟩
  case of_error =>
    intro cursor fault left hfault hquiet more
    obtain ⟨inner, hinner, rfl⟩ := mapFault_eq_error_iff.mp hfault
    rw [hf] at hquiet
    exact mapFault_eq_error_iff.mpr ⟨inner, h.of_error cursor inner left hinner hquiet more, rfl⟩
  case asks =>
    intro cursor fault left failure hfault hfailure
    obtain ⟨inner, hinner, rfl⟩ := mapFault_eq_error_iff.mp hfault
    rw [hf] at hfailure
    exact h.asks cursor inner left failure hinner hfailure
  case waits =>
    intro cursor fault left failure hfault hfailure more hmore
    obtain ⟨inner, hinner, rfl⟩ := mapFault_eq_error_iff.mp hfault
    rw [hf] at hfailure
    obtain ⟨later, there, hlater, hleft⟩ :=
      h.waits cursor inner left failure hinner hfailure more hmore
    exact ⟨f later, there, mapFault_eq_error_iff.mpr ⟨later, hlater, rfl⟩, (hf later).trans hleft⟩

/-! ### Bytes and words -/

section Words

variable [OfEndOfData ε] [LawfulEndOfData ε]

theorem take (count : Nat) : Incremental (Decoder.take count : Decoder ε (List UInt8)) := by
  constructor
  case of_ok =>
    intro cursor taken left h
    obtain ⟨hcount, rfl, rfl⟩ := take_eq_ok_iff.mp h
    refine ⟨Cursor.stop_advance hcount, fun more ↦ take_eq_ok_iff.mpr ⟨?_, ?_, ?_⟩⟩
    · rw [Cursor.remaining_extend]
      omega
    · exact (List.take_append_of_le_length hcount).symm
    · exact (Cursor.advance_extend hcount more).symm
  case of_error =>
    intro cursor fault left h hfault
    obtain ⟨-, rfl, -⟩ := take_eq_error_iff.mp h
    simp [endOfData?_ofEndOfData] at hfault
  case asks =>
    intro cursor fault left failure h hfailure
    obtain ⟨hcount, rfl, -⟩ := take_eq_error_iff.mp h
    rw [endOfData?_ofEndOfData] at hfailure
    obtain rfl := Option.some.inj hfailure
    exact ⟨Nat.le_add_right _ _, Nat.sub_pos_of_lt hcount⟩
  case waits =>
    intro cursor fault left failure h hfailure more hmore
    obtain ⟨hcount, rfl, -⟩ := take_eq_error_iff.mp h
    rw [endOfData?_ofEndOfData] at hfailure
    obtain rfl := Option.some.inj hfailure
    have hstill : (cursor.extend more).remaining < count := by
      rw [Cursor.remaining_extend]
      simp only at hmore
      omega
    refine ⟨_, _, take_eq_error_iff.mpr ⟨hstill, rfl, rfl⟩, ?_⟩
    rw [endOfData?_ofEndOfData, Cursor.remaining_extend, Cursor.extend, Nat.sub_add_eq]

theorem window (count : Nat) : Incremental (Decoder.window count : Decoder ε Cursor) :=
  position.bind fun _ ↦ (take count).map _

theorem u8 : Incremental (Decoder.u8 : Decoder ε UInt8) := (take 1).map _

theorem u16 : Incremental (Decoder.u16 : Decoder ε UInt16) := (take 2).map _

theorem u32 : Incremental (Decoder.u32 : Decoder ε UInt32) := (take 4).map _

theorem u64 : Incremental (Decoder.u64 : Decoder ε UInt64) :=
  u32.bind fun _ ↦ u32.map _

theorem i32 : Incremental (Decoder.i32 : Decoder ε Int32) := u32.map _

end Words

/-! ### Repetition -/

theorem times {decoder : Decoder ε α} (h : Incremental decoder) (count : Nat) :
    Incremental (Decoder.times count decoder) := by
  induction count with
  | zero => exact .pure _
  | succ count ih =>
    rw [times_succ]
    exact h.bind fun _ ↦ ih.map _

theorem counted16 [OfEndOfData ε] [LawfulEndOfData ε] {decoder : Decoder ε α}
    (h : Incremental decoder) : Incremental (Decoder.counted16 decoder) :=
  u16.bind fun count ↦ h.times count.toNat

/-! ### Shorter buffers -/

variable {decoder : Decoder ε α} {front behind : List UInt8} {start : Nat} {value : α}

/-- Where a decoder succeeds and uses up the bytes, fewer of them make it ask for bytes, and for no
more than are missing. -/
theorem asks_of_append (h : Incremental decoder) {left : Cursor}
    (hdecoder : decoder ⟨front ++ behind, start⟩ = (.ok value, left)) (hleft : left.rest = [])
    (hbehind : behind ≠ []) :
    ∃ fault there failure, decoder ⟨front, start⟩ = (.error fault, there) ∧
      endOfData? fault = some failure ∧ failure.offset ≤ start + front.length ∧
        1 ≤ failure.wanted ∧ failure.wanted ≤ behind.length := by
  have hextend : (⟨front ++ behind, start⟩ : Cursor) = Cursor.extend ⟨front, start⟩ behind := rfl
  rw [hextend] at hdecoder
  cases hfront : decoder ⟨front, start⟩ with
  | mk result there =>
    cases result with
    | ok found =>
      -- The bytes behind would be left over.
      have hmore := (h.of_ok _ _ _ hfront).2 behind
      rw [hdecoder] at hmore
      obtain ⟨-, rfl⟩ := Prod.mk.inj hmore
      exact absurd (List.append_eq_nil_iff.mp hleft).2 hbehind
    | error fault =>
      cases hfault : endOfData? fault with
      | none =>
        have hmore := h.of_error _ _ _ hfront hfault behind
        rw [hdecoder] at hmore
        simp at hmore
      | some failure =>
        obtain ⟨hoffset, hone⟩ := h.asks _ _ _ _ hfront hfault
        refine ⟨fault, there, failure, rfl, hfault, hoffset, hone, ?_⟩
        -- Had it asked for more, it would go on asking when all the bytes are there.
        refine Nat.le_of_not_lt fun hwanted ↦ ?_
        obtain ⟨later, _, hlater, -⟩ := h.waits _ _ _ _ hfront hfault behind hwanted
        rw [hdecoder] at hlater
        simp at hlater

end Incremental

end Decoder

end MonitorAudit
