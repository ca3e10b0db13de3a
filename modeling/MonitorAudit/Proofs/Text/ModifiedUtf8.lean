import MonitorAudit.Proofs.Text.Utf16
import MonitorAudit.Text.ModifiedUtf8

/-!
# Texts that are written and read back

`ModifiedUtf8.decode` has two ways to read bytes, and takes the one for UTF-8 wherever it can. A
character within the code units has in UTF-8 the bytes of its unit, except that zero is a single
byte (`utf8EncodeChar_eq_encodeUnit`). A character beyond them has four bytes, none of which starts
a unit, so unit by unit it becomes four replacement characters (`unitReading`).

Where the bytes are those of code units the choice makes no difference, since the bytes of a code
unit are never those of a character beyond the units (`encodeUnit_lt`). Both ways find the same
units, and from them the same text.

`ModifiedUtf8.decode_encode_iff_denotes` says that the text read from the bytes of code units is
what the units denote, and that every text comes back from the bytes that its code units have.
-/

set_option autoImplicit false

namespace MonitorAudit.ModifiedUtf8

/-! ### Units of bytes -/

theorem toNat_ofNat_of_le {number : Nat} (h : number ≤ 0xFF) :
    (UInt8.ofNat number).toNat = number :=
  UInt8.toNat_ofNat_of_lt' (Nat.lt_succ_of_le h)

theorem encodeUnit_one {unit : UInt16} (hzero : unit.toNat ≠ 0) (hunit : unit.toNat < 0x80) :
    encodeUnit unit = [UInt8.ofNat unit.toNat] := by
  have hone : unit ≠ 0 ∧ unit < 0x80 :=
    ⟨fun h ↦ hzero (congrArg UInt16.toNat h), UInt16.lt_iff_toNat_lt.mpr hunit⟩
  rw [encodeUnit, if_pos hone]
  rfl

theorem encodeUnit_two {unit : UInt16} (hwide : unit.toNat = 0 ∨ 0x80 ≤ unit.toNat)
    (hunit : unit.toNat < 0x800) :
    encodeUnit unit =
      [UInt8.ofNat (0xC0 + unit.toNat / 0x40), UInt8.ofNat (0x80 + unit.toNat % 0x40)] := by
  have hone : ¬ (unit ≠ 0 ∧ unit < 0x80) := by
    rw [ne_eq, ← UInt16.toNat_inj, UInt16.lt_iff_toNat_lt]
    exact fun h ↦ hwide.elim h.1 (Nat.not_le_of_lt h.2)
  rw [encodeUnit, if_neg hone, if_pos (UInt16.lt_iff_toNat_lt.mpr hunit)]

theorem encodeUnit_three {unit : UInt16} (hunit : 0x800 ≤ unit.toNat) :
    encodeUnit unit =
      [UInt8.ofNat (0xE0 + unit.toNat / 0x1000), UInt8.ofNat (0x80 + unit.toNat / 0x40 % 0x40),
        UInt8.ofNat (0x80 + unit.toNat % 0x40)] := by
  have htwo : ¬ unit < 0x800 := fun h ↦ Nat.not_lt_of_le hunit (UInt16.lt_iff_toNat_lt.mp h)
  have hone : ¬ (unit ≠ 0 ∧ unit < 0x80) := by
    rintro ⟨-, hsmall⟩
    have hnat : unit.toNat < 0x80 := UInt16.lt_iff_toNat_lt.mp hsmall
    omega
  rw [encodeUnit, if_neg hone, if_neg htwo]

/-- A unit has one of three forms. -/
theorem unit_cases (unit : UInt16) :
    (unit.toNat ≠ 0 ∧ unit.toNat < 0x80) ∨
      ((unit.toNat = 0 ∨ 0x80 ≤ unit.toNat) ∧ unit.toNat < 0x800) ∨ 0x800 ≤ unit.toNat := by
  omega

theorem unitsOnto_one (split : List UInt16) {first : UInt8} (h : first.toNat < 0x80)
    (rest : List UInt8) :
    unitsOnto split (first :: rest) = unitsOnto (first.toUInt16 :: split) rest := by
  rw [unitsOnto.eq_def]
  simp only [Width.of, if_pos h]

theorem unitsOnto_two (split : List UInt16) {first : UInt8} (h : first.toNat / 0x20 = 0x6)
    (second : UInt8) (rest : List UInt8) :
    unitsOnto split (first :: second :: rest) =
      unitsOnto (unitOfTwo first second :: split) rest := by
  rw [unitsOnto, Width.of, if_neg (by omega), if_pos h]

theorem unitsOnto_three (split : List UInt16) {first : UInt8} (h : first.toNat / 0x10 = 0xE)
    (second third : UInt8) (rest : List UInt8) :
    unitsOnto split (first :: second :: third :: rest) =
      unitsOnto (unitOfThree first second third :: split) rest := by
  rw [unitsOnto, Width.of, if_neg (by omega), if_neg (by omega), if_pos h]

theorem unitOfTwo_eq {unit : UInt16} (h : unit.toNat < 0x800) :
    unitOfTwo (UInt8.ofNat (0xC0 + unit.toNat / 0x40)) (UInt8.ofNat (0x80 + unit.toNat % 0x40)) =
      unit := by
  rw [unitOfTwo, low6, toNat_ofNat_of_le (by omega), toNat_ofNat_of_le (by omega),
    ← UInt16.toNat_inj, Utf16.toNat_ofNat_of_le (by omega)]
  omega

theorem unitOfThree_eq (unit : UInt16) :
    unitOfThree (UInt8.ofNat (0xE0 + unit.toNat / 0x1000))
      (UInt8.ofNat (0x80 + unit.toNat / 0x40 % 0x40)) (UInt8.ofNat (0x80 + unit.toNat % 0x40)) =
      unit := by
  have hunit := unit.toNat_lt
  rw [unitOfThree, low6, low6, toNat_ofNat_of_le (by omega), toNat_ofNat_of_le (by omega),
    toNat_ofNat_of_le (by omega), ← UInt16.toNat_inj, Utf16.toNat_ofNat_of_le (by omega)]
  omega

/-- The bytes of a unit are split into that unit. -/
theorem unitsOnto_encodeUnit (split : List UInt16) (unit : UInt16) (rest : List UInt8) :
    unitsOnto split (encodeUnit unit ++ rest) = unitsOnto (unit :: split) rest := by
  have hunit := unit.toNat_lt
  rcases unit_cases unit with ⟨hzero, hone⟩ | ⟨hwide, htwo⟩ | hthree
  · have hfirst := toNat_ofNat_of_le (show unit.toNat ≤ 0xFF by omega)
    have hback : (UInt8.ofNat unit.toNat).toUInt16 = unit := by
      rw [← UInt16.toNat_inj, UInt8.toNat_toUInt16, hfirst]
    rw [encodeUnit_one hzero hone, List.singleton_append, unitsOnto_one split (by omega), hback]
  · have hfirst := toNat_ofNat_of_le (show 0xC0 + unit.toNat / 0x40 ≤ 0xFF by omega)
    rw [encodeUnit_two hwide htwo, List.cons_append, List.singleton_append,
      unitsOnto_two split (by omega), unitOfTwo_eq htwo]
  · have hfirst := toNat_ofNat_of_le (show 0xE0 + unit.toNat / 0x1000 ≤ 0xFF by omega)
    rw [encodeUnit_three hthree, List.cons_append, List.cons_append, List.singleton_append,
      unitsOnto_three split (by omega), unitOfThree_eq]

/-- The bytes of units are split into those units. -/
theorem unitsOnto_encode (split units : List UInt16) :
    unitsOnto split (encode units) = split.reverse ++ units := by
  induction units generalizing split with
  | nil => rw [encode, List.flatMap_nil, unitsOnto, List.append_nil]
  | cons unit units ih =>
    rw [encode, List.flatMap_cons, unitsOnto_encodeUnit, ← encode, ih, List.reverse_cons,
      List.append_assoc, List.singleton_append]

theorem units_encode (codeUnits : List UInt16) : units (encode codeUnits) = codeUnits :=
  unitsOnto_encode [] codeUnits

/-! ### The two ways to read -/

/-- The bytes of characters in UTF-8. -/
def utf8 (chars : List Char) : List UInt8 := chars.flatMap String.utf8EncodeChar

/-- Bytes that are those of characters in UTF-8 are these characters. -/
theorem decode_utf8 (chars : List Char) : decode (utf8 chars) = String.ofList chars := by
  have hvalid : (utf8 chars).toByteArray.IsValidUTF8 := .intro chars rfl
  rw [decode, String.fromUTF8?, dif_pos hvalid, ← String.toByteArray_inj,
    String.toByteArray_ofList]
  rfl

/-- Bytes that are not UTF-8 are read unit by unit. -/
theorem decode_of_ne_utf8 {bytes : List UInt8} (h : ∀ chars, bytes ≠ utf8 chars) :
    decode bytes = decodeUnits bytes := by
  have hinvalid : ¬ bytes.toByteArray.IsValidUTF8 := by
    rintro ⟨chars, hchars⟩
    exact h chars (List.toByteArray_inj.mp hchars)
  rw [decode, String.fromUTF8?, dif_neg hinvalid]

/-! ### Characters and code units -/

/-- The bytes of a character by its number. -/
theorem utf8EncodeChar_eq (char : Char) :
    String.utf8EncodeChar char =
      if char.toNat < 0x80 then [UInt8.ofNat char.toNat]
      else if char.toNat < 0x800 then
        [UInt8.ofNat (0xC0 + char.toNat / 0x40), UInt8.ofNat (0x80 + char.toNat % 0x40)]
      else if char.toNat < 0x10000 then
        [UInt8.ofNat (0xE0 + char.toNat / 0x1000), UInt8.ofNat (0x80 + char.toNat / 0x40 % 0x40),
          UInt8.ofNat (0x80 + char.toNat % 0x40)]
      else
        [UInt8.ofNat (0xF0 + char.toNat / 0x40000), UInt8.ofNat (0x80 + char.toNat / 0x1000 % 0x40),
          UInt8.ofNat (0x80 + char.toNat / 0x40 % 0x40),
          UInt8.ofNat (0x80 + char.toNat % 0x40)] := by
  have hvalid := Utf16.toNat_not_surrogate char
  rw [String.utf8EncodeChar]
  show (if char.toNat ≤ 0x7F then [UInt8.ofNat char.toNat]
    else if char.toNat ≤ 0x7FF then
      [UInt8.ofNat (char.toNat / 64 % 32 + 192), UInt8.ofNat (char.toNat % 64 + 128)]
    else if char.toNat ≤ 0xFFFF then
      [UInt8.ofNat (char.toNat / 4096 % 16 + 224), UInt8.ofNat (char.toNat / 64 % 64 + 128),
        UInt8.ofNat (char.toNat % 64 + 128)]
    else
      [UInt8.ofNat (char.toNat / 262144 % 8 + 240), UInt8.ofNat (char.toNat / 4096 % 64 + 128),
        UInt8.ofNat (char.toNat / 64 % 64 + 128), UInt8.ofNat (char.toNat % 64 + 128)]) = _
  generalize char.toNat = number at hvalid ⊢
  by_cases hone : number < 0x80
  · rw [if_pos hone, if_pos (by omega)]
  by_cases htwo : number < 0x800
  · rw [if_neg hone, if_neg (by omega), if_pos htwo, if_pos (by omega),
      show number / 64 % 32 + 192 = 0xC0 + number / 0x40 by omega, Nat.add_comm _ 128]
  by_cases hthree : number < 0x10000
  · rw [if_neg hone, if_neg (by omega), if_neg htwo, if_neg (by omega), if_pos hthree,
      if_pos (by omega), show number / 4096 % 16 + 224 = 0xE0 + number / 0x1000 by omega,
      Nat.add_comm _ 128, Nat.add_comm _ 128]
  · rw [if_neg hone, if_neg (by omega), if_neg htwo, if_neg (by omega), if_neg hthree,
      if_neg (by omega), show number / 262144 % 8 + 240 = 0xF0 + number / 0x40000 by omega,
      Nat.add_comm _ 128, Nat.add_comm _ 128, Nat.add_comm _ 128]

/-- Apart from zero, a character within the code units has in UTF-8 the bytes of its unit. -/
theorem utf8EncodeChar_eq_encodeUnit {char : Char} (hzero : char.toNat ≠ 0)
    (hchar : char.toNat < 0x10000) :
    String.utf8EncodeChar char = encodeUnit (UInt16.ofNat char.toNat) := by
  have hunit : (UInt16.ofNat char.toNat).toNat = char.toNat :=
    Utf16.toNat_ofNat_of_le (by omega)
  rcases unit_cases (UInt16.ofNat char.toNat) with ⟨hnonzero, hone⟩ | ⟨hwide, htwo⟩ | hthree
  · rw [utf8EncodeChar_eq, encodeUnit_one hnonzero hone, hunit, if_pos (by omega)]
  · rw [utf8EncodeChar_eq, encodeUnit_two hwide htwo, hunit, if_neg (by omega),
      if_pos (by omega)]
  · rw [utf8EncodeChar_eq, encodeUnit_three hthree, hunit, if_neg (by omega), if_neg (by omega),
      if_pos (by omega)]

/-- The bytes of a character within the code units are split into its unit. -/
theorem unitsOnto_utf8EncodeChar (split : List UInt16) {char : Char}
    (hchar : char.toNat < 0x10000) (rest : List UInt8) :
    unitsOnto split (String.utf8EncodeChar char ++ rest) =
      unitsOnto (UInt16.ofNat char.toNat :: split) rest := by
  by_cases hzero : char.toNat = 0
  · have hnul : char = '\x00' := Char.toNat_inj.mp hzero
    rw [hnul]
    exact unitsOnto_one split (by decide) rest
  · rw [utf8EncodeChar_eq_encodeUnit hzero hchar, unitsOnto_encodeUnit]

/-- A byte that starts no unit is replaced. -/
theorem unitsOnto_none (split : List UInt16) {first : UInt8} (hone : 0x80 ≤ first.toNat)
    (htwo : first.toNat / 0x20 ≠ 0x6) (hthree : first.toNat / 0x10 ≠ 0xE) (rest : List UInt8) :
    unitsOnto split (first :: rest) = unitsOnto (replacementUnit :: split) rest := by
  rw [unitsOnto.eq_def]
  simp only [Width.of, if_neg (Nat.not_lt_of_le hone), if_neg htwo, if_neg hthree]

theorem unitsOnto_trail (split : List UInt16) (low : Nat) (rest : List UInt8) :
    unitsOnto split (UInt8.ofNat (0x80 + low % 0x40) :: rest) =
      unitsOnto (replacementUnit :: split) rest := by
  have hbyte := toNat_ofNat_of_le (show 0x80 + low % 0x40 ≤ 0xFF by omega)
  exact unitsOnto_none split (by omega) (by omega) (by omega) rest

/-- None of the bytes of a character beyond the units starts a unit. -/
theorem unitsOnto_supplementary (split : List UInt16) {char : Char}
    (hchar : ¬ char.toNat < 0x10000) (rest : List UInt8) :
    unitsOnto split (String.utf8EncodeChar char ++ rest) =
      unitsOnto (List.replicate 4 replacementUnit ++ split) rest := by
  have hvalid := Utf16.toNat_not_surrogate char
  have hfirst := toNat_ofNat_of_le (show 0xF0 + char.toNat / 0x40000 ≤ 0xFF by omega)
  rw [utf8EncodeChar_eq, if_neg (by omega), if_neg (by omega), if_neg hchar]
  simp only [List.cons_append, List.nil_append]
  rw [unitsOnto_none split (by omega) (by omega) (by omega), unitsOnto_trail, unitsOnto_trail,
    unitsOnto_trail]
  rfl

/-- A character beyond the units has a byte that no unit has. -/
theorem exists_mem_utf8EncodeChar {char : Char} (hchar : ¬ char.toNat < 0x10000) :
    ∃ byte ∈ String.utf8EncodeChar char, 0xF0 ≤ byte.toNat := by
  have hvalid := Utf16.toNat_not_surrogate char
  refine ⟨UInt8.ofNat (0xF0 + char.toNat / 0x40000), ?_, ?_⟩
  · rw [utf8EncodeChar_eq, if_neg (by omega), if_neg (by omega), if_neg hchar]
    exact List.mem_cons_self
  · rw [toNat_ofNat_of_le (by omega)]
    omega

/-! ### Characters read unit by unit -/

/-- What a character in UTF-8 is when it is read unit by unit. -/
def unitReading (char : Char) : List Char :=
  if char.toNat < 0x10000 then [char] else List.replicate 4 Utf16.replacement

/-- The units of characters in UTF-8 are those of what is read for them. -/
theorem unitsOnto_utf8_eq (split : List UInt16) (chars : List Char) :
    unitsOnto split (utf8 chars) = split.reverse ++ Utf16.encode (chars.flatMap unitReading) := by
  induction chars generalizing split with
  | nil => rw [utf8, List.flatMap_nil, List.flatMap_nil, unitsOnto, Utf16.encode_nil,
      List.append_nil]
  | cons char chars ih =>
    rw [utf8, List.flatMap_cons, List.flatMap_cons, unitReading]
    by_cases hchar : char.toNat < 0x10000
    · rw [if_pos hchar, unitsOnto_utf8EncodeChar split hchar, ← utf8, ih, List.singleton_append,
        Utf16.encode_cons, Utf16.encodeChar, if_pos hchar, List.reverse_cons, List.append_assoc]
    · have hreplaced (text : List Char) :
          Utf16.encode (List.replicate 4 Utf16.replacement ++ text) =
            List.replicate 4 replacementUnit ++ Utf16.encode text := by
        rw [Utf16.encode, List.flatMap_append]
        rfl
      rw [if_neg hchar, unitsOnto_supplementary split hchar, ← utf8, ih, hreplaced,
        List.reverse_append, List.reverse_replicate, List.append_assoc]

/-- Characters in UTF-8 that are read unit by unit. -/
theorem decodeUnits_utf8_eq (chars : List Char) :
    decodeUnits (utf8 chars) = String.ofList (chars.flatMap unitReading) := by
  have hunits : units (utf8 chars) = Utf16.encode (chars.flatMap unitReading) :=
    unitsOnto_utf8_eq [] chars
  rw [decodeUnits, hunits, (Utf16.denotes_encode _).decodeLossy_eq]

/-- Only characters within the code units are read as themselves. -/
theorem flatMap_unitReading_eq_iff (chars : List Char) :
    chars.flatMap unitReading = chars ↔ ∀ char ∈ chars, char.toNat < 0x10000 := by
  induction chars with
  | nil => simp
  | cons char chars ih =>
    rw [List.flatMap_cons, List.forall_mem_cons, unitReading]
    by_cases hchar : char.toNat < 0x10000
    · simp [hchar, ih]
    · rw [if_neg hchar]
      -- The first character that is read is a replacement, which is within the units.
      refine iff_of_false (fun h ↦ ?_) fun h ↦ hchar h.1
      have hfirst : Utf16.replacement = char := (List.cons.inj h).1
      rw [← hfirst] at hchar
      exact hchar (by decide)

/-- For characters within the code units the way in which UTF-8 is read makes no difference. -/
theorem decode_utf8_eq_decodeUnits_iff (chars : List Char) :
    decode (utf8 chars) = decodeUnits (utf8 chars) ↔ ∀ char ∈ chars, char.toNat < 0x10000 := by
  rw [decode_utf8, decodeUnits_utf8_eq, String.ofList_inj, eq_comm, flatMap_unitReading_eq_iff]

/-! ### Written units -/

/-- The bytes of a unit are below those that start a character beyond the units. -/
theorem encodeUnit_lt (unit : UInt16) : ∀ byte ∈ encodeUnit unit, byte.toNat < 0xF0 := by
  have hunit := unit.toNat_lt
  rcases unit_cases unit with ⟨hzero, hone⟩ | ⟨hwide, htwo⟩ | hthree
  · simp only [encodeUnit_one hzero hone, List.forall_mem_cons]
    refine ⟨?_, by simp⟩
    rw [toNat_ofNat_of_le (by omega)]
    omega
  · simp only [encodeUnit_two hwide htwo, List.forall_mem_cons]
    refine ⟨?_, ?_, by simp⟩
    all_goals
      rw [toNat_ofNat_of_le (by omega)]
      omega
  · simp only [encodeUnit_three hthree, List.forall_mem_cons]
    refine ⟨?_, ?_, ?_, by simp⟩
    all_goals
      rw [toNat_ofNat_of_le (by omega)]
      omega

/-- Characters are within the units exactly if none of their bytes starts one of four bytes. -/
theorem forall_mem_utf8_lt_iff (chars : List Char) :
    (∀ byte ∈ utf8 chars, byte.toNat < 0xF0) ↔ ∀ char ∈ chars, char.toNat < 0x10000 := by
  constructor
  · intro h char hmem
    refine Decidable.byContradiction fun hchar ↦ ?_
    obtain ⟨byte, hbyte, hlarge⟩ := exists_mem_utf8EncodeChar hchar
    exact Nat.not_lt_of_le hlarge (h byte (List.mem_flatMap.mpr ⟨char, hmem, hbyte⟩))
  · intro h byte hbyte
    obtain ⟨char, hmem, hbyte⟩ := List.mem_flatMap.mp hbyte
    by_cases hzero : char.toNat = 0
    · obtain rfl : char = '\x00' := Char.toNat_inj.mp hzero
      obtain rfl : byte = 0 := List.mem_singleton.mp hbyte
      decide
    · rw [utf8EncodeChar_eq_encodeUnit hzero (h char hmem)] at hbyte
      exact encodeUnit_lt _ byte hbyte

/-- Characters whose bytes are those of units are within the units. -/
theorem toNat_lt_of_utf8_eq_encode {chars : List Char} {codeUnits : List UInt16}
    (h : utf8 chars = encode codeUnits) : ∀ char ∈ chars, char.toNat < 0x10000 := by
  rw [← forall_mem_utf8_lt_iff, h]
  intro byte hbyte
  obtain ⟨unit, -, hunit⟩ := List.mem_flatMap.mp hbyte
  exact encodeUnit_lt unit byte hunit

/-- Written units are read unit by unit, or as UTF-8 with the same result. -/
theorem decode_encode_eq_decodeUnits (codeUnits : List UInt16) :
    decode (encode codeUnits) = decodeUnits (encode codeUnits) := by
  by_cases hutf8 : ∃ chars, utf8 chars = encode codeUnits
  · obtain ⟨chars, hchars⟩ := hutf8
    rw [← hchars, decode_utf8_eq_decodeUnits_iff]
    exact toNat_lt_of_utf8_eq_encode hchars
  · exact decode_of_ne_utf8 fun chars hchars ↦ hutf8 ⟨chars, hchars.symm⟩

/-- The text that is read from the bytes of code units is what the units denote, and every text is
read from the bytes that are written for its code units. -/
theorem decode_encode_iff_denotes :
    (∀ codeUnits text,
      decode (encode codeUnits) = text ↔ Utf16.Denotes codeUnits text.toList) ∧
    ∀ text : String, decode (encode (Utf16.encode text.toList)) = text := by
  have hread (codeUnits : List UInt16) (text : String) :
      decode (encode codeUnits) = text ↔ Utf16.Denotes codeUnits text.toList := by
    rw [decode_encode_eq_decodeUnits, decodeUnits, units_encode, ← Utf16.decodeLossy_eq_iff]
    constructor
    · rintro rfl
      exact (String.toList_ofList).symm
    · intro h
      rw [h, String.ofList_toList]
  exact ⟨hread, fun text ↦ (hread _ text).mpr (Utf16.denotes_encode text.toList)⟩

end MonitorAudit.ModifiedUtf8
