import Mathlib.Data.List.Forall2
import MonitorAudit.Proofs.Bytes.Extension
import MonitorAudit.Proofs.Bytes.Format

/-!
# Two runs on buffers that differ in one stretch

`Cursor.patch` puts other bytes in the place of those at an offset. A decoder that `LooksNoFurther`
than the bytes that it uses does not notice a patch behind them (`LooksNoFurther.patch`), and every
decoder that reads a format is one (`Reads.looksNoFurther`).

`SameOutcome related` says of two runs that they leave the same bytes at the same offset, and either
fail with the same fault or answer related values. Two runs of a sequence have the same outcome if
they meet the patch in one of its parts and the parts behind that one are given related values
(`SameOutcome.bind_patch`, `SameOutcome.bind`).
-/

set_option autoImplicit false

namespace MonitorAudit

/-! ### Patches -/

namespace Cursor

/-- The cursor over the same buffer with the given bytes at an offset in front of it. -/
def patch (cursor : Cursor) (offset : Nat) (bytes : List UInt8) : Cursor :=
  ⟨cursor.rest.take (offset - cursor.position) ++ bytes ++
    cursor.rest.drop (offset - cursor.position + bytes.length), cursor.position⟩

/-- A patch behind the bytes that are passed over is one of what is left. -/
theorem patch_append {used rest : List UInt8} {start offset : Nat} (bytes : List UInt8)
    (h : start + used.length ≤ offset) :
    (⟨used ++ rest, start⟩ : Cursor).patch offset bytes =
      ⟨used ++ ((⟨rest, start + used.length⟩ : Cursor).patch offset bytes).rest, start⟩ := by
  obtain ⟨more, rfl⟩ := Nat.exists_eq_add_of_le h
  have htake : start + used.length + more - start = used.length + more := by omega
  have hdrop : used.length + more + bytes.length = used.length + (more + bytes.length) := by omega
  simp only [patch, htake, hdrop, List.take_length_add_append, List.drop_length_add_append,
    Nat.add_sub_cancel_left, List.append_assoc]

/-- A patch of what comes next is one of the next bytes alone. -/
theorem patch_split {cursor : Cursor} {count offset : Nat} {bytes : List UInt8}
    (hcount : count ≤ cursor.remaining) (hoffset : cursor.position ≤ offset)
    (hbytes : offset + bytes.length ≤ cursor.position + count) :
    cursor.patch offset bytes =
      ⟨((⟨cursor.rest.take count, cursor.position⟩ : Cursor).patch offset bytes).rest ++
        cursor.rest.drop count, cursor.position⟩ := by
  obtain ⟨rest, start⟩ := cursor
  obtain ⟨more, rfl⟩ := Nat.exists_eq_add_of_le hoffset
  simp only [remaining] at hcount hbytes
  have htake : more + bytes.length ≤ (rest.take count).length := by
    rw [List.length_take]
    omega
  have hsplit := List.take_append_drop count rest
  simp only [patch, Nat.add_sub_cancel_left]
  conv_lhs => rw [← hsplit]
  rw [List.take_append_of_le_length (by omega), List.drop_append_of_le_length htake,
    ← List.append_assoc]

/-- A patch inside the buffer changes no length. -/
theorem length_patch (cursor : Cursor) {offset : Nat} {bytes : List UInt8}
    (hoffset : cursor.position ≤ offset)
    (hbytes : offset + bytes.length ≤ cursor.position + cursor.remaining) :
    (cursor.patch offset bytes).rest.length = cursor.rest.length := by
  simp only [remaining] at hbytes
  simp only [patch, List.length_append, List.length_take, List.length_drop]
  omega

/-- A buffer that differs in one stretch only is a patch of the other. -/
theorem ofBytes_eq_patch {bytes other : List UInt8} {offset count : Nat}
    (hlength : other.length = bytes.length) (hcount : offset + count ≤ bytes.length)
    (h : ∀ index, index < offset ∨ offset + count ≤ index → other[index]? = bytes[index]?) :
    ofBytes other = (ofBytes bytes).patch offset ((other.drop offset).take count) := by
  have hfront : other.take offset = bytes.take offset := by
    refine List.ext_getElem? fun index ↦ ?_
    by_cases hindex : index < offset
    · rw [List.getElem?_take_of_lt hindex, List.getElem?_take_of_lt hindex, h index (.inl hindex)]
    · rw [List.getElem?_take_eq_none (by omega), List.getElem?_take_eq_none (by omega)]
  have hback : other.drop (offset + count) = bytes.drop (offset + count) := by
    refine List.ext_getElem? fun index ↦ ?_
    rw [List.getElem?_drop, List.getElem?_drop, h _ (.inr (Nat.le_add_right _ _))]
  have hmiddle : ((other.drop offset).take count).length = count := by
    rw [List.length_take, List.length_drop]
    omega
  simp only [ofBytes, patch, hmiddle, Nat.sub_zero, ← hfront, ← hback, List.append_assoc]
  rw [← List.drop_drop, List.take_append_drop, List.take_append_drop]

end Cursor

namespace Decoder

variable {ε φ α β : Type}

/-! ### Decoders that look no further than they read -/

/-- Where the decoder succeeds, it uses some bytes and answers the same whatever follows them. -/
def LooksNoFurther (decoder : Decoder ε α) : Prop :=
  ∀ cursor value left, decoder cursor = (.ok value, left) →
    ∃ used, cursor.rest = used ++ left.rest ∧ left.position = cursor.position + used.length ∧
      ∀ rest, decoder ⟨used ++ rest, cursor.position⟩ = (.ok value, ⟨rest, left.position⟩)

/-- Bytes of a format are read whatever follows them. -/
theorem Reads.looksNoFurther {decoder : Decoder ε α} {format : Format α}
    (h : Reads decoder format) : LooksNoFurther decoder := by
  intro cursor value left hdecoder
  obtain ⟨used, hused, hrest, hposition⟩ := (h cursor value left).mp hdecoder
  refine ⟨used, hrest, hposition, fun rest ↦ ?_⟩
  rw [hposition]
  exact h.run cursor.position hused rest

namespace LooksNoFurther

variable {decoder : Decoder ε α} {cursor left : Cursor} {value : α}

theorem leadsTo (h : LooksNoFurther decoder) (hdecoder : decoder cursor = (.ok value, left)) :
    cursor.LeadsTo left := by
  obtain ⟨used, hrest, hposition, -⟩ := h cursor value left hdecoder
  refine ⟨used.length, ?_, ?_⟩
  · rw [Cursor.remaining, hrest, List.length_append]
    exact Nat.le_add_right _ _
  · rw [Cursor.advance, hrest, List.drop_left, ← hposition]

theorem position_le (h : LooksNoFurther decoder) (hdecoder : decoder cursor = (.ok value, left)) :
    cursor.position ≤ left.position :=
  (h.leadsTo hdecoder).position_le

theorem stop_eq (h : LooksNoFurther decoder) (hdecoder : decoder cursor = (.ok value, left)) :
    left.stop = cursor.stop :=
  (h.leadsTo hdecoder).stop_eq

/-- A patch behind the bytes that a decoder uses goes unnoticed. -/
theorem patch (h : LooksNoFurther decoder) (hdecoder : decoder cursor = (.ok value, left))
    {offset : Nat} (hoffset : left.position ≤ offset) (bytes : List UInt8) :
    decoder (cursor.patch offset bytes) = (.ok value, left.patch offset bytes) := by
  obtain ⟨used, hrest, hposition, hany⟩ := h cursor value left hdecoder
  obtain ⟨rest, start⟩ := cursor
  obtain ⟨behind, stop⟩ := left
  simp only at hrest hposition hoffset hany
  subst hrest hposition
  rw [Cursor.patch_append bytes hoffset]
  exact hany _

theorem pure (value : α) : LooksNoFurther (Pure.pure value : Decoder ε α) :=
  (Reads.pure value).looksNoFurther

theorem bind {next : α → Decoder ε β} (h : LooksNoFurther decoder)
    (hnext : ∀ value, LooksNoFurther (next value)) : LooksNoFurther (decoder >>= next) := by
  intro cursor value left hdecoder
  obtain ⟨first, middle, hfirst, hsecond⟩ := bind_eq_ok_iff.mp hdecoder
  obtain ⟨used, hused, hmiddle, hany⟩ := h cursor first middle hfirst
  obtain ⟨more, hmore, hlast, hany'⟩ := hnext first middle value left hsecond
  refine ⟨used ++ more, ?_, ?_, fun rest ↦ ?_⟩
  · rw [hused, hmore, List.append_assoc]
  · rw [hlast, hmiddle, List.length_append, Nat.add_assoc]
  · rw [List.append_assoc]
    exact bind_eq_ok_iff.mpr ⟨first, _, hany _, hany' rest⟩

theorem times (h : LooksNoFurther decoder) (count : Nat) :
    LooksNoFurther (Decoder.times count decoder) := by
  induction count with
  | zero => exact .pure []
  | succ count ih =>
    rw [times_succ]
    exact h.bind fun _ ↦ ih.bind fun _ ↦ .pure _

theorem mapFault (h : LooksNoFurther decoder) (f : ε → φ) :
    LooksNoFurther (decoder.mapFault f) := by
  intro cursor value left hdecoder
  obtain ⟨used, hrest, hposition, hany⟩ := h cursor value left (mapFault_eq_ok_iff.mp hdecoder)
  exact ⟨used, hrest, hposition, fun rest ↦ mapFault_eq_ok_iff.mpr (hany rest)⟩

end LooksNoFurther

/-- A stretch that is split off stands at the cursor. -/
theorem window_eq_ok_iff [OfEndOfData ε] {cursor payload left : Cursor} {count : Nat} :
    (window count : Decoder ε Cursor) cursor = (.ok payload, left) ↔
      count ≤ cursor.remaining ∧ payload = ⟨cursor.rest.take count, cursor.position⟩ ∧
        left = cursor.advance count := by
  constructor
  · intro h
    obtain ⟨start, there, hstart, hbehind⟩ := bind_eq_ok_iff.mp h
    obtain ⟨rfl, rfl⟩ : cursor.position = start ∧ cursor = there := by simpa [position] using hstart
    obtain ⟨bytes, behind, hbytes, hpure⟩ := bind_eq_ok_iff.mp hbehind
    obtain ⟨rfl, rfl⟩ : ⟨bytes, cursor.position⟩ = payload ∧ behind = left := by simpa using hpure
    obtain ⟨hcount, rfl, rfl⟩ := take_eq_ok_iff.mp hbytes
    exact ⟨hcount, rfl, rfl⟩
  · rintro ⟨hcount, rfl, rfl⟩
    exact bind_eq_ok_iff.mpr ⟨_, _, rfl,
      bind_eq_ok_iff.mpr ⟨_, _, take_eq_ok_iff.mpr ⟨hcount, rfl, rfl⟩, rfl⟩⟩

/-- A patch inside a stretch that is split off is a patch of the stretch, and what follows is the
same. -/
theorem window_patch [OfEndOfData ε] {cursor payload left : Cursor} {count offset : Nat}
    {bytes : List UInt8} (h : (window count : Decoder ε Cursor) cursor = (.ok payload, left))
    (hoffset : payload.position ≤ offset) (hbytes : offset + bytes.length ≤ payload.stop) :
    (window count : Decoder ε Cursor) (cursor.patch offset bytes) =
      (.ok (payload.patch offset bytes), left) := by
  obtain ⟨hcount, rfl, rfl⟩ := window_eq_ok_iff.mp h
  have hstretch : (cursor.rest.take count).length = count := List.length_take_of_le hcount
  have hlength := Cursor.length_patch _ hoffset hbytes
  rw [hstretch] at hlength
  rw [Cursor.stop, Cursor.remaining, hstretch] at hbytes
  rw [Cursor.patch_split hcount hoffset hbytes,
    (Reads.window count).run cursor.position ⟨rfl, hlength⟩ (cursor.rest.drop count), hlength]
  rfl

/-! ### Outcomes of two runs -/

/-- Two runs leave the same cursor, and either fail with the same fault or answer related values. -/
inductive SameOutcome (related : α → α → Prop) :
    Except ε α × Cursor → Except ε α × Cursor → Prop
  | ok {value other : α} (alike : related value other) (left : Cursor) :
      SameOutcome related (.ok value, left) (.ok other, left)
  | error (fault : ε) (left : Cursor) :
      SameOutcome related (.error fault, left) (.error fault, left)

namespace SameOutcome

variable {related : α → α → Prop} {relatedBehind : β → β → Prop}

theorem refl (hrefl : ∀ value, related value value) (outcome : Except ε α × Cursor) :
    SameOutcome related outcome outcome := by
  obtain ⟨result, left⟩ := outcome
  cases result with
  | ok value => exact .ok (hrefl value) left
  | error fault => exact .error fault left

/-- Values may be related more loosely. -/
theorem imp {other : α → α → Prop} {first second : Except ε α × Cursor}
    (h : SameOutcome related first second)
    (hrelated : ∀ value value', related value value' → other value value') :
    SameOutcome other first second := by
  cases h with
  | ok alike left => exact .ok (hrelated _ _ alike) left
  | error fault left => exact .error fault left

theorem mapFault {decoder other : Decoder ε α} {cursor cursor' : Cursor}
    (h : SameOutcome related (decoder cursor) (other cursor')) (f : ε → φ) :
    SameOutcome related (decoder.mapFault f cursor) (other.mapFault f cursor') := by
  rw [Decoder.mapFault, Decoder.mapFault]
  generalize decoder cursor = outcome at h ⊢
  generalize other cursor' = outcome' at h ⊢
  cases h with
  | ok alike left => exact .ok alike left
  | error fault left => exact .error (f fault) left

/-- What follows two runs of the same outcome is given related values at the same cursor. -/
theorem bind {first first' : Decoder ε α} {next next' : α → Decoder ε β}
    {cursor cursor' : Cursor} (hfirst : SameOutcome related (first cursor) (first' cursor'))
    (hnext : ∀ value other left, related value other →
      SameOutcome relatedBehind (next value left) (next' other left)) :
    SameOutcome relatedBehind ((first >>= next) cursor) ((first' >>= next') cursor') := by
  rw [bind_apply, bind_apply]
  generalize first cursor = outcome at hfirst ⊢
  generalize first' cursor' = outcome' at hfirst ⊢
  cases hfirst with
  | ok alike left => exact hnext _ _ left alike
  | error fault left => exact .error fault left

/-- A part that both runs do alike is left behind. -/
theorem bind_same (first : Decoder ε α) {next next' : α → Decoder ε β} {cursor : Cursor}
    (hnext : ∀ value left, SameOutcome relatedBehind (next value left) (next' value left)) :
    SameOutcome relatedBehind ((first >>= next) cursor) ((first >>= next') cursor) :=
  bind (refl (fun _ ↦ rfl) (first cursor)) fun value other left heq ↦ by
    subst heq
    exact hnext value left

/-- A part that succeeds in front of a patch is left behind. -/
theorem bind_patch {first : Decoder ε α} {next : α → Decoder ε β} {cursor left : Cursor}
    {value : α} {offset : Nat} {bytes : List UInt8} (hfirst : LooksNoFurther first)
    (hvalue : first cursor = (.ok value, left)) (hoffset : left.position ≤ offset)
    (hnext : SameOutcome relatedBehind (next value left) (next value (left.patch offset bytes))) :
    SameOutcome relatedBehind ((first >>= next) cursor)
      ((first >>= next) (cursor.patch offset bytes)) := by
  rw [bind_apply, bind_apply, hvalue, hfirst.patch hvalue hoffset bytes]
  exact hnext

/-- Rows that are read behind a row with a patch in it are the same. -/
theorem times {row : Decoder ε α} {relatedRow : α → α → Prop} (hrow : LooksNoFurther row)
    (hrefl : ∀ value, relatedRow value value) {count place : Nat} (hplace : place < count)
    {start site : Cursor} {values : List α}
    (hpassed : Decoder.times place row start = (.ok values, site)) {offset : Nat}
    {bytes : List UInt8} (hoffset : site.position ≤ offset)
    (hsite : SameOutcome relatedRow (row site) (row (site.patch offset bytes))) :
    SameOutcome (List.Forall₂ relatedRow) (Decoder.times count row start)
      (Decoder.times count row (start.patch offset bytes)) := by
  induction place generalizing count start values with
  | zero =>
    obtain ⟨-, rfl⟩ : _ ∧ start = site := by simpa using hpassed
    obtain ⟨count, rfl⟩ : ∃ rest, count = rest + 1 := ⟨count - 1, by omega⟩
    rw [times_succ]
    refine bind hsite fun value other left halike ↦ bind_same _ fun rows left ↦ ?_
    exact .ok (.cons halike (List.forall₂_same.mpr fun row _ ↦ hrefl row)) left
  | succ place ih =>
    obtain ⟨count, rfl⟩ : ∃ rest, count = rest + 1 := ⟨count - 1, by omega⟩
    rw [times_succ] at hpassed ⊢
    obtain ⟨first, middle, hfirst, hrest⟩ := bind_eq_ok_iff.mp hpassed
    obtain ⟨others, last, hothers, hpure⟩ := bind_eq_ok_iff.mp hrest
    obtain ⟨-, rfl⟩ : _ ∧ last = site := by simpa using hpure
    have hmiddle := (hrow.times place).position_le hothers
    refine bind_patch hrow hfirst (Nat.le_trans hmiddle hoffset) ?_
    refine bind (ih (Nat.lt_of_succ_lt_succ hplace) hothers) fun rows rows' left halike ↦ ?_
    exact .ok (.cons (hrefl first) halike) left

end SameOutcome

end Decoder

end MonitorAudit
