/-!
# Text from UTF-16 code units

`decodeLossy` reads a list of 16-bit code units as text. A high surrogate and the low surrogate
behind it are one supplementary character, any other surrogate becomes the replacement character,
and every other unit is a character of its own. `decodeLossy_cons_of_not_surrogate`,
`decodeLossy_pair` and `decodeLossy_unpaired` are these three rules.
-/

set_option autoImplicit false

namespace MonitorAudit.Utf16

/-- What stands for code units that are no character. -/
def replacement : Char := '\uFFFD'

/-- The first half of a supplementary character. -/
def IsHighSurrogate (unit : UInt16) : Prop := 0xD800 ≤ unit ∧ unit < 0xDC00

/-- The second half of a supplementary character. -/
def IsLowSurrogate (unit : UInt16) : Prop := 0xDC00 ≤ unit ∧ unit < 0xE000

instance (unit : UInt16) : Decidable (IsHighSurrogate unit) :=
  inferInstanceAs (Decidable (_ ∧ _))

instance (unit : UInt16) : Decidable (IsLowSurrogate unit) :=
  inferInstanceAs (Decidable (_ ∧ _))

/-- The supplementary character of a surrogate pair. -/
def pair (high low : UInt16) : Char :=
  Char.ofNat (0x10000 + (high.toNat - 0xD800) * 0x400 + (low.toNat - 0xDC00))

/-- Decodes the units behind the characters already decoded, which come last first. -/
def decodeOnto : List Char → List UInt16 → List Char
  | decoded, [] => decoded.reverse
  | decoded, unit :: units =>
    if IsHighSurrogate unit then
      match units with
      | [] => (replacement :: decoded).reverse
      | low :: rest =>
        if IsLowSurrogate low then decodeOnto (pair unit low :: decoded) rest
        else decodeOnto (replacement :: decoded) (low :: rest)
    else if IsLowSurrogate unit then decodeOnto (replacement :: decoded) units
    else decodeOnto (Char.ofNat unit.toNat :: decoded) units

/-- The characters of a list of code units, with the replacement character for each surrogate
that has no partner. -/
def decodeLossy (units : List UInt16) : List Char := decodeOnto [] units

/-! ### The rules of decoding -/

theorem decodeOnto_append (decoded before : List Char) (units : List UInt16) :
    decodeOnto (decoded ++ before) units = before.reverse ++ decodeOnto decoded units := by
  fun_induction decodeOnto decoded units with
  | case1 decoded => simp [decodeOnto]
  | case2 decoded unit hhigh => simp [decodeOnto, hhigh]
  | case3 decoded unit hhigh low rest hlow ih => simpa [decodeOnto, hhigh, hlow] using ih
  | case4 decoded unit hhigh low rest hlow ih => simpa [decodeOnto, hhigh, hlow] using ih
  | case5 decoded unit units hhigh hlow ih =>
    rw [decodeOnto.eq_def]
    simpa [hhigh, hlow] using ih
  | case6 decoded unit units hhigh hlow ih =>
    rw [decodeOnto.eq_def]
    simpa [hhigh, hlow] using ih

theorem decodeOnto_eq (decoded : List Char) (units : List UInt16) :
    decodeOnto decoded units = decoded.reverse ++ decodeLossy units :=
  decodeOnto_append [] decoded units

@[simp] theorem decodeLossy_nil : decodeLossy [] = [] := rfl

theorem decodeLossy_cons_of_not_surrogate {unit : UInt16} {units : List UInt16}
    (hhigh : ¬ IsHighSurrogate unit) (hlow : ¬ IsLowSurrogate unit) :
    decodeLossy (unit :: units) = Char.ofNat unit.toNat :: decodeLossy units := by
  rw [decodeLossy, decodeOnto.eq_def]
  simp [hhigh, hlow, decodeOnto_eq]

theorem decodeLossy_pair {high low : UInt16} {units : List UInt16}
    (hhigh : IsHighSurrogate high) (hlow : IsLowSurrogate low) :
    decodeLossy (high :: low :: units) = pair high low :: decodeLossy units := by
  rw [decodeLossy, decodeOnto.eq_def]
  simp [hhigh, hlow, decodeOnto_eq]

/-- A surrogate that is not the first half of a pair is replaced. -/
theorem decodeLossy_unpaired {unit : UInt16} {units : List UInt16}
    (hsurrogate : IsHighSurrogate unit ∨ IsLowSurrogate unit)
    (halone : IsHighSurrogate unit → ∀ low ∈ units.head?, ¬ IsLowSurrogate low) :
    decodeLossy (unit :: units) = replacement :: decodeLossy units := by
  rw [decodeLossy, decodeOnto.eq_def]
  by_cases hhigh : IsHighSurrogate unit
  · match units with
    | [] => simp [hhigh]
    | low :: rest =>
      have hlow : ¬ IsLowSurrogate low := halone hhigh low (by simp)
      simp [hhigh, hlow, decodeOnto_eq]
  · have hlow : IsLowSurrogate unit := hsurrogate.resolve_left hhigh
    simp [hhigh, hlow, decodeOnto_eq]

end MonitorAudit.Utf16
