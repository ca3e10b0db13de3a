import MonitorAudit.Text.Utf16

/-!
# What code units denote

`Utf16.Denotes` says which characters a sequence of code units stands for, one rule for each way in
which a character comes from the front of the sequence: a pair of surrogates, a surrogate without a
partner, and any other unit. It says so by the numbers of the characters and not by the decoder.

`Utf16.decodeLossy_eq_iff` says that the decoder follows it, so every sequence denotes exactly one
text. `Utf16.encode` writes characters as code units, and what it writes denotes the characters
(`Utf16.denotes_encode`).
-/

set_option autoImplicit false

namespace MonitorAudit.Utf16

/-- The surrogate at the front of a sequence is not the first half of a pair. -/
def IsAlone (unit : UInt16) (behind : List UInt16) : Prop :=
  IsLowSurrogate unit ∨ IsHighSurrogate unit ∧ ∀ low ∈ behind.head?, ¬ IsLowSurrogate low

/-- The characters that a sequence of code units stands for. -/
inductive Denotes : List UInt16 → List Char → Prop where
  | nil : Denotes [] []
  /-- A high surrogate and the low surrogate behind it are one supplementary character. -/
  | pair {high low : UInt16} {char : Char} {units : List UInt16} {chars : List Char}
      (hhigh : IsHighSurrogate high) (hlow : IsLowSurrogate low)
      (number : char.toNat =
        0x10000 + (high.toNat - 0xD800) * 0x400 + (low.toNat - 0xDC00))
      (behind : Denotes units chars) : Denotes (high :: low :: units) (char :: chars)
  /-- A surrogate without a partner becomes the replacement character. -/
  | unpaired {unit : UInt16} {units : List UInt16} {chars : List Char}
      (alone : IsAlone unit units)
      (behind : Denotes units chars) : Denotes (unit :: units) ('\uFFFD' :: chars)
  /-- Every other unit is a character of its own. -/
  | single {unit : UInt16} {char : Char} {units : List UInt16} {chars : List Char}
      (hhigh : ¬ IsHighSurrogate unit) (hlow : ¬ IsLowSurrogate unit)
      (number : char.toNat = unit.toNat)
      (behind : Denotes units chars) : Denotes (unit :: units) (char :: chars)

/-! ### Numbers of characters -/

theorem isHighSurrogate_iff (unit : UInt16) :
    IsHighSurrogate unit ↔ 0xD800 ≤ unit.toNat ∧ unit.toNat < 0xDC00 := by
  rw [IsHighSurrogate, UInt16.le_iff_toNat_le, UInt16.lt_iff_toNat_lt]
  rfl

theorem isLowSurrogate_iff (unit : UInt16) :
    IsLowSurrogate unit ↔ 0xDC00 ≤ unit.toNat ∧ unit.toNat < 0xE000 := by
  rw [IsLowSurrogate, UInt16.le_iff_toNat_le, UInt16.lt_iff_toNat_lt]
  rfl

/-- No unit is a surrogate of both kinds. -/
theorem IsHighSurrogate.not_isLowSurrogate {unit : UInt16} (h : IsHighSurrogate unit) :
    ¬ IsLowSurrogate unit := by
  rw [isHighSurrogate_iff] at h
  rw [isLowSurrogate_iff]
  omega

/-- The character of a number outside the surrogates has that number. -/
theorem toNat_ofNat {number : Nat}
    (h : number < 0xD800 ∨ 0xDFFF < number ∧ number < 0x110000) :
    (Char.ofNat number).toNat = number := by
  have hvalid : number.isValidChar := h
  rw [Char.ofNat, dif_pos hvalid]
  rfl

theorem toNat_pair {high low : UInt16} (hhigh : IsHighSurrogate high) (hlow : IsLowSurrogate low) :
    (pair high low).toNat =
      0x10000 + (high.toNat - 0xD800) * 0x400 + (low.toNat - 0xDC00) := by
  rw [isHighSurrogate_iff] at hhigh
  rw [isLowSurrogate_iff] at hlow
  exact toNat_ofNat (by omega)

theorem toNat_ofNat_unit {unit : UInt16} (hhigh : ¬ IsHighSurrogate unit)
    (hlow : ¬ IsLowSurrogate unit) : (Char.ofNat unit.toNat).toNat = unit.toNat := by
  rw [isHighSurrogate_iff] at hhigh
  rw [isLowSurrogate_iff] at hlow
  have hunit := unit.toNat_lt
  exact toNat_ofNat (by omega)

/-- A character is no surrogate. -/
theorem toNat_not_surrogate (char : Char) :
    char.toNat < 0xD800 ∨ 0xDFFF < char.toNat ∧ char.toNat < 0x110000 :=
  char.valid

/-! ### The decoder -/

theorem Denotes.decodeLossy_eq {units : List UInt16} {chars : List Char}
    (h : Denotes units chars) : decodeLossy units = chars := by
  induction h with
  | nil => exact decodeLossy_nil
  | pair hhigh hlow number behind ih =>
    have hchar := Char.toNat_inj.mp ((toNat_pair hhigh hlow).trans number.symm)
    rw [decodeLossy_pair hhigh hlow, hchar, ih]
  | unpaired alone behind ih =>
    rcases alone with hlow | ⟨hhigh, halone⟩
    · rw [decodeLossy_unpaired (.inr hlow) fun hhigh ↦ absurd hlow hhigh.not_isLowSurrogate, ih]
      rfl
    · rw [decodeLossy_unpaired (.inl hhigh) fun _ ↦ halone, ih]
      rfl
  | single hhigh hlow number behind ih =>
    have hchar := Char.toNat_inj.mp ((toNat_ofNat_unit hhigh hlow).trans number.symm)
    rw [decodeLossy_cons_of_not_surrogate hhigh hlow, hchar, ih]

/-- Every sequence denotes the characters that the decoder finds in it. -/
theorem denotes_decodeLossy (units : List UInt16) : Denotes units (decodeLossy units) := by
  match units with
  | [] => exact .nil
  | unit :: rest =>
    by_cases hhigh : IsHighSurrogate unit
    · match rest with
      | [] =>
        have halone : ∀ low ∈ ([] : List UInt16).head?, ¬ IsLowSurrogate low := by simp
        rw [decodeLossy_unpaired (.inl hhigh) fun _ ↦ halone]
        exact .unpaired (.inr ⟨hhigh, halone⟩) .nil
      | low :: later =>
        by_cases hlow : IsLowSurrogate low
        · rw [decodeLossy_pair hhigh hlow]
          exact .pair hhigh hlow (toNat_pair hhigh hlow) (denotes_decodeLossy later)
        · have halone : ∀ found ∈ (low :: later).head?, ¬ IsLowSurrogate found := by simpa
          rw [decodeLossy_unpaired (.inl hhigh) fun _ ↦ halone]
          exact .unpaired (.inr ⟨hhigh, halone⟩) (denotes_decodeLossy (low :: later))
    · by_cases hlow : IsLowSurrogate unit
      · rw [decodeLossy_unpaired (.inr hlow) fun h ↦ absurd h hhigh]
        exact .unpaired (.inl hlow) (denotes_decodeLossy rest)
      · rw [decodeLossy_cons_of_not_surrogate hhigh hlow]
        exact .single hhigh hlow (toNat_ofNat_unit hhigh hlow) (denotes_decodeLossy rest)
termination_by units.length

/-- The decoder finds exactly what a sequence denotes. -/
theorem decodeLossy_eq_iff (units : List UInt16) (chars : List Char) :
    decodeLossy units = chars ↔ Denotes units chars := by
  constructor
  · rintro rfl
    exact denotes_decodeLossy units
  · exact Denotes.decodeLossy_eq

/-! ### Writing -/

/-- The code units of a character: one, or a pair of surrogates for a supplementary character. -/
def encodeChar (char : Char) : List UInt16 :=
  if char.toNat < 0x10000 then [UInt16.ofNat char.toNat]
  else [UInt16.ofNat (0xD800 + (char.toNat - 0x10000) / 0x400),
    UInt16.ofNat (0xDC00 + (char.toNat - 0x10000) % 0x400)]

/-- The code units of characters. -/
def encode (chars : List Char) : List UInt16 := chars.flatMap encodeChar

@[simp] theorem encode_nil : encode [] = [] := rfl

theorem encode_cons (char : Char) (chars : List Char) :
    encode (char :: chars) = encodeChar char ++ encode chars := List.flatMap_cons

theorem toNat_ofNat_of_le {number : Nat} (h : number ≤ 0xFFFF) :
    (UInt16.ofNat number).toNat = number :=
  UInt16.toNat_ofNat_of_lt' (Nat.lt_succ_of_le h)

/-- The code unit of a character that is not supplementary is no surrogate and has its number. -/
theorem denotes_single {char : Char} (hchar : char.toNat < 0x10000) {units : List UInt16}
    {chars : List Char} (behind : Denotes units chars) :
    Denotes (UInt16.ofNat char.toNat :: units) (char :: chars) := by
  have hunit : (UInt16.ofNat char.toNat).toNat = char.toNat := toNat_ofNat_of_le (by omega)
  have hvalid := toNat_not_surrogate char
  refine .single ?_ ?_ hunit.symm behind
  · rw [isHighSurrogate_iff, hunit]
    omega
  · rw [isLowSurrogate_iff, hunit]
    omega

/-- The code units of a supplementary character are a pair that has its number. -/
theorem denotes_pair {char : Char} (hchar : ¬ char.toNat < 0x10000) {units : List UInt16}
    {chars : List Char} (behind : Denotes units chars) :
    Denotes (UInt16.ofNat (0xD800 + (char.toNat - 0x10000) / 0x400) ::
      UInt16.ofNat (0xDC00 + (char.toNat - 0x10000) % 0x400) :: units) (char :: chars) := by
  have hvalid := toNat_not_surrogate char
  have hhigh : (UInt16.ofNat (0xD800 + (char.toNat - 0x10000) / 0x400)).toNat =
      0xD800 + (char.toNat - 0x10000) / 0x400 := toNat_ofNat_of_le (by omega)
  have hlow : (UInt16.ofNat (0xDC00 + (char.toNat - 0x10000) % 0x400)).toNat =
      0xDC00 + (char.toNat - 0x10000) % 0x400 := toNat_ofNat_of_le (by omega)
  refine .pair ?_ ?_ ?_ behind
  · rw [isHighSurrogate_iff, hhigh]
    omega
  · rw [isLowSurrogate_iff, hlow]
    omega
  · rw [hhigh, hlow]
    omega

/-- What is written for characters denotes them. -/
theorem denotes_encode (chars : List Char) : Denotes (encode chars) chars := by
  induction chars with
  | nil => exact .nil
  | cons char chars ih =>
    rw [encode_cons, encodeChar]
    by_cases hchar : char.toNat < 0x10000
    · rw [if_pos hchar]
      exact denotes_single hchar ih
    · rw [if_neg hchar]
      exact denotes_pair hchar ih

end MonitorAudit.Utf16
