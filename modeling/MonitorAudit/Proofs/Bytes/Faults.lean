import MonitorAudit.Proofs.Bytes.Failure
import MonitorAudit.Proofs.Bytes.Patch

/-!
# The faults of a decoder

A `FaultKind` says which faults a decoder may meet that starts at a cursor. A read past the end is
one of them, and so is whatever may be met further on. `decoder.FaultsIn kind` says that all that
goes wrong in a decoder is of the kind, for the cursor at which the decoder starts.

Reading bytes and words is of every kind, and so is all that is put together from decoders of the
kind by sequencing and repetition. What is left to be said is where a decoder refuses what it has
read, which is mostly a tag (`FaultsIn.tagged`).
-/

set_option autoImplicit false

namespace MonitorAudit

/-- The byte stands at the offset, at the cursor or behind it. -/
def Cursor.HasByte (cursor : Cursor) (offset : Nat) (byte : UInt8) : Prop :=
  cursor.position ≤ offset ∧ cursor.rest[offset - cursor.position]? = some byte

theorem Cursor.hasByte_cons (byte : UInt8) (rest : List UInt8) (start : Nat) :
    (⟨byte :: rest, start⟩ : Cursor).HasByte start byte :=
  ⟨Nat.le_refl start, by rw [Nat.sub_self, List.getElem?_cons_zero]⟩

theorem Cursor.HasByte.of_advance {cursor : Cursor} {count offset : Nat} {byte : UInt8}
    (h : (cursor.advance count).HasByte offset byte) : cursor.HasByte offset byte := by
  obtain ⟨hoffset, hbyte⟩ := h
  simp only [Cursor.advance, List.getElem?_drop] at hoffset hbyte
  refine ⟨Nat.le_of_add_right_le hoffset, ?_⟩
  rwa [← Nat.sub_sub, Nat.add_sub_cancel' (by omega)] at hbyte

/-- The faults that a decoder may meet, for each cursor at which it may start. -/
structure FaultKind (ε : Type) [OfEndOfData ε] where
  /-- Whether the fault may be met from the cursor on. -/
  Holds : Cursor → ε → Prop
  of_isShort : ∀ {cursor : Cursor} {count : Nat} {fault : ε},
    Decoder.IsShort cursor count fault → Holds cursor fault
  of_advance : ∀ {cursor : Cursor} {count : Nat} {fault : ε}, count ≤ cursor.remaining →
    Holds (cursor.advance count) fault → Holds cursor fault

namespace Decoder

variable {ε φ α β : Type}

/-- Where the decoder succeeds, it moves the cursor forward over bytes that are there. -/
def Advances (decoder : Decoder ε α) : Prop :=
  ∀ cursor value left, decoder cursor = (.ok value, left) → cursor.LeadsTo left

theorem Reads.advances {decoder : Decoder ε α} {format : Format α} (h : Reads decoder format) :
    decoder.Advances :=
  fun _ _ _ hdecoder ↦ h.looksNoFurther.leadsTo hdecoder

theorem Advances.position : (Decoder.position : Decoder ε Nat).Advances := by
  intro cursor value left h
  obtain rfl := (Prod.mk.inj h).2
  exact .refl cursor

theorem Advances.bind {first : Decoder ε α} {next : α → Decoder ε β} (hfirst : first.Advances)
    (hnext : ∀ value, (next value).Advances) : (first >>= next).Advances := by
  intro cursor value left h
  obtain ⟨middle, between, hbetween, hlast⟩ := bind_eq_ok_iff.mp h
  exact (hfirst _ _ _ hbetween).trans (hnext _ _ _ _ hlast)

theorem Advances.mapFault {decoder : Decoder ε α} (h : decoder.Advances) (f : ε → φ) :
    (decoder.mapFault f).Advances :=
  fun cursor value left hdecoder ↦ h cursor value left (mapFault_eq_ok_iff.mp hdecoder)

variable [OfEndOfData ε]

/-- Whatever goes wrong in the decoder is of the kind. -/
structure FaultsIn (decoder : Decoder ε α) (kind : FaultKind ε) : Prop where
  advances : decoder.Advances
  holds : ∀ {cursor : Cursor} {fault : ε}, decoder.FailsWith cursor fault → kind.Holds cursor fault

namespace FaultsIn

variable {kind : FaultKind ε}

/-- A decoder that does not fail is of every kind. -/
theorem of_advances {decoder : Decoder ε α} (h : decoder.Advances)
    (hnever : ∀ cursor fault, ¬ decoder.FailsWith cursor fault) : decoder.FaultsIn kind :=
  ⟨h, fun hfault ↦ absurd hfault (hnever _ _)⟩

theorem pure (value : α) : FaultsIn (Pure.pure value : Decoder ε α) kind :=
  of_advances (Reads.pure value).advances (by simp)

theorem position : FaultsIn (Decoder.position : Decoder ε Nat) kind :=
  of_advances .position (by simp)

theorem takeRest : FaultsIn (Decoder.takeRest : Decoder ε (List UInt8)) kind := by
  refine of_advances (fun cursor value left h ↦ ⟨cursor.remaining, Nat.le_refl _, ?_⟩)
    fun cursor fault h ↦ nomatch h
  rw [Cursor.advance, Cursor.remaining, List.drop_length]
  exact (Prod.mk.inj h).2.symm

theorem bind {first : Decoder ε α} {next : α → Decoder ε β} (hfirst : first.FaultsIn kind)
    (hnext : ∀ value, (next value).FaultsIn kind) : (first >>= next).FaultsIn kind := by
  refine ⟨hfirst.advances.bind fun value ↦ (hnext value).advances, fun {cursor fault} h ↦ ?_⟩
  rcases failsWith_bind_iff.mp h with h | ⟨middle, between, hbetween, hlast⟩
  · exact hfirst.holds h
  · obtain ⟨count, hcount, rfl⟩ := hfirst.advances _ _ _ hbetween
    exact kind.of_advance hcount ((hnext middle).holds hlast)

theorem map {decoder : Decoder ε α} (h : decoder.FaultsIn kind) (f : α → β) :
    (f <$> decoder).FaultsIn kind :=
  h.bind fun _ ↦ .pure _

/-- A kind may be widened. -/
theorem imp {other : FaultKind ε} {decoder : Decoder ε α} (h : decoder.FaultsIn kind)
    (hkind : ∀ cursor fault, kind.Holds cursor fault → other.Holds cursor fault) :
    decoder.FaultsIn other :=
  ⟨h.advances, fun hfault ↦ hkind _ _ (h.holds hfault)⟩

theorem ite {condition : Prop} [Decidable condition] {yes no : Decoder ε α}
    (hyes : yes.FaultsIn kind) (hno : no.FaultsIn kind) :
    (if condition then yes else no).FaultsIn kind := by
  split
  · exact hyes
  · exact hno

theorem times {decoder : Decoder ε α} (h : decoder.FaultsIn kind) (count : Nat) :
    (Decoder.times count decoder).FaultsIn kind := by
  induction count with
  | zero => exact .pure _
  | succ count ih =>
    rw [times_succ]
    exact h.bind fun _ ↦ ih.map _

/-! ### Bytes, words and tables -/

theorem take (count : Nat) : (Decoder.take count : Decoder ε (List UInt8)).FaultsIn kind :=
  ⟨(Reads.take count).advances, fun hfault ↦ kind.of_isShort (failsWith_take_iff.mp hfault)⟩

theorem u8 : (Decoder.u8 : Decoder ε UInt8).FaultsIn kind := (take 1).map _

theorem u16 : (Decoder.u16 : Decoder ε UInt16).FaultsIn kind := (take 2).map _

theorem u32 : (Decoder.u32 : Decoder ε UInt32).FaultsIn kind := (take 4).map _

theorem u64 : (Decoder.u64 : Decoder ε UInt64).FaultsIn kind := u32.bind fun _ ↦ u32.map _

theorem i32 : (Decoder.i32 : Decoder ε Int32).FaultsIn kind := u32.map _

theorem counted8 {decoder : Decoder ε α} (h : decoder.FaultsIn kind) :
    (Decoder.counted8 decoder).FaultsIn kind :=
  u8.bind fun count ↦ h.times count.toNat

theorem counted16 {decoder : Decoder ε α} (h : decoder.FaultsIn kind) :
    (Decoder.counted16 decoder).FaultsIn kind :=
  u16.bind fun count ↦ h.times count.toNat

/-- What begins with a tag goes wrong behind the tag, or refuses the tag, which is at the cursor. -/
theorem tagged {next : Nat → UInt8 → Decoder ε α}
    (h : ∀ start tag, (next start tag).FaultsIn kind ∨
      ∃ fault, next start tag = fail fault ∧ ∀ rest, kind.Holds ⟨tag :: rest, start⟩ fault) :
    FaultsIn (do
      let start ← Decoder.position
      let tag ← Decoder.u8
      next start tag) kind := by
  constructor
  · refine Advances.position.bind fun start ↦ Reads.u8.advances.bind fun tag ↦ ?_
    rcases h start tag with h | ⟨fault, hfail, -⟩
    · exact h.advances
    · rw [hfail]
      exact (Reads.fail fault).advances
  · intro cursor fault hfault
    have hbehind : (Decoder.u8 >>= next cursor.position).FailsWith cursor fault := hfault
    rcases failsWith_bind_iff.mp hbehind with hshort | ⟨tag, left, htag, hnext⟩
    · exact u8.holds hshort
    · rcases h cursor.position tag with h | ⟨found, hfail, hfound⟩
      · obtain ⟨count, hcount, rfl⟩ := Reads.u8.advances _ _ _ htag
        exact kind.of_advance hcount (h.holds hnext)
      · obtain ⟨_, rfl, hrest, -⟩ := (Reads.u8 _ _ _).mp htag
        rw [hfail, failsWith_fail_iff] at hnext
        have hcursor : cursor = ⟨tag :: left.rest, cursor.position⟩ := by
          rw [← List.singleton_append, ← hrest]
        rw [hcursor, ← hnext]
        exact hfound left.rest

end FaultsIn

end Decoder

end MonitorAudit
