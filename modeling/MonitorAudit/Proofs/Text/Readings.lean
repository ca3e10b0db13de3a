import MonitorAudit.Proofs.Text.Utf8

/-!
# Where the two readings of bytes differ

`ModifiedUtf8.decode` reads bytes as UTF-8 wherever they are well-formed, and else unit by unit.
This module compares it with the reading unit by unit of all bytes (`decodeUnits`).

A character within the code units is the same in both, and one beyond them is not.
`ModifiedUtf8.readings_agree_iff` says that the readings agree on all bytes but those that are
well-formed and hold a character beyond the units.
-/

set_option autoImplicit false

namespace MonitorAudit.ModifiedUtf8

theorem decode_eq_decodeUnits_iff (bytes : List UInt8) :
    decode bytes = decodeUnits bytes ↔
      ¬ Utf8.WellFormed bytes ∨ ∀ byte ∈ bytes, byte.toNat < 0xF0 := by
  by_cases hformed : Utf8.WellFormed bytes
  · obtain ⟨chars, rfl⟩ := (Utf8.wellFormed_iff bytes).mp hformed
    rw [decode_utf8_eq_decodeUnits_iff, forall_mem_utf8_lt_iff]
    exact (or_iff_right (not_not_intro hformed)).symm
  · refine iff_of_true (decode_of_ne_utf8 fun chars hchars ↦ hformed ?_) (.inl hformed)
    exact (Utf8.wellFormed_iff bytes).mpr ⟨chars, hchars⟩

/-- The readings differ for the bytes of characters of which some are beyond the units. -/
theorem decode_ne_decodeUnits_iff (bytes : List UInt8) :
    decode bytes ≠ decodeUnits bytes ↔
      ∃ chars, bytes = utf8 chars ∧ ∃ char ∈ chars, 0x10000 ≤ char.toNat := by
  rw [ne_eq, decode_eq_decodeUnits_iff, not_or, Classical.not_not, Utf8.wellFormed_iff]
  constructor
  · rintro ⟨⟨chars, rfl⟩, hlarge⟩
    refine ⟨chars, rfl, ?_⟩
    simpa only [forall_mem_utf8_lt_iff, Classical.not_forall, Nat.not_lt, exists_prop] using hlarge
  · rintro ⟨chars, rfl, char, hmem, hchar⟩
    refine ⟨⟨chars, rfl⟩, fun hsmall ↦ ?_⟩
    exact Nat.not_lt_of_le hchar ((forall_mem_utf8_lt_iff chars).mp hsmall char hmem)

/-- The reading as UTF-8 differs from the one unit by unit only for well-formed bytes with one that
starts a character of four bytes. So it makes no difference for written units, whether zero is
written in two bytes or as a byte of its own. Where it makes one, the bytes are those of characters
of which some are beyond the units; unit by unit, each of these would be four replacement
characters. -/
theorem readings_agree_iff :
    (∀ bytes, decode bytes = decodeUnits bytes ↔
      ¬ Utf8.WellFormed bytes ∨ ∀ byte ∈ bytes, byte.toNat < 0xF0) ∧
    (∀ pieces : List (List UInt8),
      (∀ piece ∈ pieces, piece = [0] ∨ ∃ unit, piece = encodeUnit unit) →
        decode pieces.flatten = decodeUnits pieces.flatten) ∧
    (∀ bytes, decode bytes ≠ decodeUnits bytes ↔
      ∃ chars, bytes = utf8 chars ∧ ∃ char ∈ chars, 0x10000 ≤ char.toNat) ∧
    ∀ chars, decode (utf8 chars) = String.ofList chars ∧
      decodeUnits (utf8 chars) = String.ofList (chars.flatMap unitReading) := by
  refine ⟨decode_eq_decodeUnits_iff, ?_, ?_, fun chars ↦ ⟨decode_utf8 chars,
    decodeUnits_utf8_eq chars⟩⟩
  · intro pieces hpieces
    refine (decode_eq_decodeUnits_iff _).mpr (.inr fun byte hbyte ↦ ?_)
    obtain ⟨piece, hpiece, hbyte⟩ := List.mem_flatten.mp hbyte
    rcases hpieces piece hpiece with rfl | ⟨unit, rfl⟩
    · obtain rfl : byte = 0 := List.mem_singleton.mp hbyte
      decide
    · exact encodeUnit_lt unit byte hbyte
  · exact decode_ne_decodeUnits_iff

example : decodeUnits [0x61, 0xF0, 0x9F, 0x98, 0x80] = "a\uFFFD\uFFFD\uFFFD\uFFFD" := by
  decide +kernel

end MonitorAudit.ModifiedUtf8
