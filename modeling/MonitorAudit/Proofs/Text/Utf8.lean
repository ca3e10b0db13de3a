import MonitorAudit.Proofs.Text.ModifiedUtf8

/-!
# Well-formed UTF-8

`Utf8.IsCharacter` says by the ranges of its bytes which bytes are one character: each character in
its shortest form only, no surrogates, and nothing beyond the last character. Bytes are
`Utf8.WellFormed` if they are such characters one behind the other.

`Utf8.wellFormed_iff` says that these are just the bytes that are written for characters.
-/

set_option autoImplicit false

namespace MonitorAudit.Utf8

open ModifiedUtf8 (utf8 toNat_ofNat_of_le utf8EncodeChar_eq)

/-! ### Bytes of characters -/

/-- The byte continues a character. -/
def IsTrail (byte : UInt8) : Prop := 0x80 ≤ byte.toNat ∧ byte.toNat < 0xC0

/-- The bytes start a character of three bytes. It needs all three, and is no surrogate. -/
structure StartsThree (first second : UInt8) : Prop where
  lead : 0xE0 ≤ first.toNat ∧ first.toNat < 0xF0
  trail : IsTrail second
  shortest : first.toNat = 0xE0 → 0xA0 ≤ second.toNat
  not_surrogate : first.toNat = 0xED → second.toNat < 0xA0

/-- The bytes start a character of four bytes. It needs all four, and is not beyond the last one. -/
structure StartsFour (first second : UInt8) : Prop where
  lead : 0xF0 ≤ first.toNat ∧ first.toNat < 0xF5
  trail : IsTrail second
  shortest : first.toNat = 0xF0 → 0x90 ≤ second.toNat
  not_beyond : first.toNat = 0xF4 → second.toNat < 0x90

/-- The bytes are one character. -/
inductive IsCharacter : List UInt8 → Prop
  | one {first : UInt8} (lead : first.toNat < 0x80) : IsCharacter [first]
  | two {first second : UInt8} (lead : 0xC2 ≤ first.toNat ∧ first.toNat < 0xE0)
      (trail : IsTrail second) : IsCharacter [first, second]
  | three {first second third : UInt8} (starts : StartsThree first second)
      (trail : IsTrail third) : IsCharacter [first, second, third]
  | four {first second third fourth : UInt8} (starts : StartsFour first second)
      (trail : IsTrail third) (last : IsTrail fourth) : IsCharacter [first, second, third, fourth]

/-- The bytes are characters one behind the other. -/
inductive WellFormed : List UInt8 → Prop
  | nil : WellFormed []
  | append {bytes rest : List UInt8} (character : IsCharacter bytes) (behind : WellFormed rest) :
      WellFormed (bytes ++ rest)

/-! ### Written characters -/

/-- What is written for a character is one. -/
theorem isCharacter_utf8EncodeChar (char : Char) : IsCharacter (String.utf8EncodeChar char) := by
  have hvalid := Utf16.toNat_not_surrogate char
  rw [utf8EncodeChar_eq]
  generalize char.toNat = number at hvalid ⊢
  have htrail (low : Nat) : IsTrail (UInt8.ofNat (0x80 + low % 0x40)) := by
    rw [IsTrail, toNat_ofNat_of_le (by omega)]
    omega
  by_cases hone : number < 0x80
  · rw [if_pos hone]
    exact .one (by rwa [toNat_ofNat_of_le (by omega)])
  by_cases htwo : number < 0x800
  · rw [if_neg hone, if_pos htwo]
    refine .two ?_ (htrail _)
    rw [toNat_ofNat_of_le (by omega)]
    omega
  by_cases hthree : number < 0x10000
  · rw [if_neg hone, if_neg htwo, if_pos hthree]
    refine .three ⟨?_, htrail _, ?_, ?_⟩ (htrail _)
    · rw [toNat_ofNat_of_le (by omega)]
      omega
    · rw [toNat_ofNat_of_le (by omega), toNat_ofNat_of_le (by omega)]
      omega
    · rw [toNat_ofNat_of_le (by omega), toNat_ofNat_of_le (by omega)]
      omega
  · rw [if_neg hone, if_neg htwo, if_neg hthree]
    refine .four ⟨?_, htrail _, ?_, ?_⟩ (htrail _) (htrail _)
    · rw [toNat_ofNat_of_le (by omega)]
      omega
    · rw [toNat_ofNat_of_le (by omega), toNat_ofNat_of_le (by omega)]
      omega
    · rw [toNat_ofNat_of_le (by omega), toNat_ofNat_of_le (by omega)]
      omega

/-- A byte is the one with its number. -/
theorem ofNat_eq (byte : UInt8) {number : Nat} (h : number = byte.toNat) :
    UInt8.ofNat number = byte := by
  rw [h, UInt8.ofNat_toNat]

/-- A character is what is written for its number. -/
theorem IsCharacter.exists_char {bytes : List UInt8} (h : IsCharacter bytes) :
    ∃ char, String.utf8EncodeChar char = bytes := by
  cases h with
  | @one first lead =>
    have hnumber : (Char.ofNat first.toNat).toNat = first.toNat := Utf16.toNat_ofNat (by omega)
    refine ⟨Char.ofNat first.toNat, ?_⟩
    rw [utf8EncodeChar_eq, hnumber, if_pos lead, ofNat_eq first rfl]
  | @two first second lead trail =>
    obtain ⟨hleast, hgreatest⟩ := trail
    obtain ⟨number, hdef⟩ : ∃ number, number = first.toNat % 0x20 * 0x40 + second.toNat % 0x40 :=
      ⟨_, rfl⟩
    have hnumber : (Char.ofNat number).toNat = number := Utf16.toNat_ofNat (by omega)
    refine ⟨Char.ofNat number, ?_⟩
    rw [utf8EncodeChar_eq, hnumber, if_neg (by omega), if_pos (by omega),
      ofNat_eq first (by omega), ofNat_eq second (by omega)]
  | @three first second third starts trail =>
    obtain ⟨hlead, ⟨hleast, hgreatest⟩, hshortest, hsurrogate⟩ := starts
    obtain ⟨hlow, hhigh⟩ := trail
    obtain ⟨number, hdef⟩ : ∃ number, number =
        first.toNat % 0x10 * 0x1000 + second.toNat % 0x40 * 0x40 + third.toNat % 0x40 := ⟨_, rfl⟩
    have hnumber : (Char.ofNat number).toNat = number := Utf16.toNat_ofNat (by omega)
    refine ⟨Char.ofNat number, ?_⟩
    rw [utf8EncodeChar_eq, hnumber, if_neg (by omega), if_neg (by omega), if_pos (by omega),
      ofNat_eq first (by omega), ofNat_eq second (by omega),
      ofNat_eq third (by omega)]
  | @four first second third fourth starts trail last =>
    obtain ⟨hlead, ⟨hleast, hgreatest⟩, hshortest, hbeyond⟩ := starts
    obtain ⟨hlow, hhigh⟩ := trail
    obtain ⟨hlast, hlast'⟩ := last
    obtain ⟨number, hdef⟩ : ∃ number, number = first.toNat % 0x8 * 0x40000 +
        second.toNat % 0x40 * 0x1000 + third.toNat % 0x40 * 0x40 + fourth.toNat % 0x40 := ⟨_, rfl⟩
    have hnumber : (Char.ofNat number).toNat = number := Utf16.toNat_ofNat (by omega)
    refine ⟨Char.ofNat number, ?_⟩
    rw [utf8EncodeChar_eq, hnumber, if_neg (by omega), if_neg (by omega), if_neg (by omega),
      ofNat_eq first (by omega), ofNat_eq second (by omega),
      ofNat_eq third (by omega), ofNat_eq fourth (by omega)]

/-- Bytes are well-formed exactly if they are written for characters. -/
theorem wellFormed_iff (bytes : List UInt8) : WellFormed bytes ↔ ∃ chars, bytes = utf8 chars := by
  constructor
  · intro h
    induction h with
    | nil => exact ⟨[], rfl⟩
    | append character _ ih =>
      obtain ⟨char, rfl⟩ := character.exists_char
      obtain ⟨chars, rfl⟩ := ih
      exact ⟨char :: chars, rfl⟩
  · rintro ⟨chars, rfl⟩
    induction chars with
    | nil => exact .nil
    | cons char chars ih => exact .append (isCharacter_utf8EncodeChar char) ih

end MonitorAudit.Utf8
