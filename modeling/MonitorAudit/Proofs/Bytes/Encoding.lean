import Mathlib.Data.List.Forall2
import MonitorAudit.Proofs.Bytes.Format

/-!
# Tables as bytes

`encodeTable8` and `encodeTable16` are the bytes of a table whose rows are given as bytes. A form
`HasOneSpelling` if each value that fits has one stretch of bytes, which `encode` gives, and any
other value has none. A table of such rows has one spelling too (`HasOneSpelling.table8`,
`HasOneSpelling.table16`); rows that can be spelled in several ways are put together by
`Table16.of_forall₂`.
-/

set_option autoImplicit false

namespace MonitorAudit

/-- The bytes of a table with an 8-bit count, from those of its rows. -/
def encodeTable8 (rows : List (List UInt8)) : List UInt8 :=
  UInt8.ofNat rows.length :: rows.flatten

/-- The bytes of a table with a 16-bit count, from those of its rows. -/
def encodeTable16 (rows : List (List UInt8)) : List UInt8 :=
  word16 (UInt16.ofNat rows.length) ++ rows.flatten

variable {α : Type}

/-- Bytes are a value exactly if they are those that are written for it and the value fits. -/
def HasOneSpelling (form : List UInt8 → α → Prop) (encode : α → List UInt8) (Fits : α → Prop) :
    Prop :=
  ∀ bytes value, form bytes value ↔ bytes = encode value ∧ Fits value

/-! ### Rows in several spellings -/

/-- Rows that are spelled one by one are spelled one behind the other. -/
theorem Rows.of_forall₂ {row : List UInt8 → α → Prop} {parts : List (List UInt8)}
    {values : List α} (h : List.Forall₂ row parts values) : Rows row parts.flatten values := by
  induction h with
  | nil => exact .nil
  | cons head tail ih =>
    rw [List.flatten_cons]
    exact .cons head ih

theorem Table16.of_forall₂ {row : List UInt8 → α → Prop} {parts : List (List UInt8)}
    {values : List α} (h : List.Forall₂ row parts values) (hcount : values.length < UInt16.size) :
    Table16 row (encodeTable16 parts) values := by
  have hlength : values.length = (UInt16.ofNat parts.length).toNat := by
    rw [h.length_eq, UInt16.toNat_ofNat_of_lt' hcount]
  exact .intro _ hlength (.of_forall₂ h)

/-- Values that are spelled by their positions are spelled one by one. -/
theorem forall₂_mapIdx {row : List UInt8 → α → Prop} {values : List α}
    {write : Nat → α → List UInt8}
    (h : ∀ position value, values[position]? = some value → row (write position value) value) :
    List.Forall₂ row (values.mapIdx write) values := by
  induction values generalizing write with
  | nil => exact .nil
  | cons value values ih =>
    rw [List.mapIdx_cons]
    refine .cons (h 0 value rfl) (ih fun position found hfound ↦ h (position + 1) found ?_)
    rwa [List.getElem?_cons_succ]

/-! ### Rows in one spelling -/

namespace HasOneSpelling

variable {form : List UInt8 → α → Prop} {encode : α → List UInt8} {Fits : α → Prop}

theorem encode_of_fits (h : HasOneSpelling form encode Fits) {value : α} (hvalue : Fits value) :
    form (encode value) value :=
  (h _ value).mpr ⟨rfl, hvalue⟩

theorem eq_encode (h : HasOneSpelling form encode Fits) {bytes : List UInt8} {value : α}
    (hform : form bytes value) : bytes = encode value :=
  ((h bytes value).mp hform).1

/-- Every value fits a form that consists of the bytes that are written. -/
theorem of_eq (encode : α → List UInt8) :
    HasOneSpelling (fun bytes value ↦ bytes = encode value) encode fun _ ↦ True :=
  fun _ _ ↦ (and_iff_left trivial).symm

/-- Rows in one spelling stand one behind the other in one spelling. -/
theorem rows (h : HasOneSpelling form encode Fits) :
    HasOneSpelling (Rows form) (fun values ↦ (values.map encode).flatten)
      fun values ↦ ∀ value ∈ values, Fits value := by
  intro bytes values
  constructor
  · intro hrows
    induction hrows with
    | nil => simp
    | cons head tail ih =>
      obtain ⟨rfl, hfits⟩ := (h _ _).mp head
      obtain ⟨rfl, htail⟩ := ih
      exact ⟨rfl, List.forall_mem_cons.mpr ⟨hfits, htail⟩⟩
  · rintro ⟨rfl, hfits⟩
    exact .of_forall₂ (List.forall₂_map_left_iff.mpr (List.forall₂_same.mpr fun value hvalue ↦
      h.encode_of_fits (hfits value hvalue)))

/-- A table with an 8-bit count of rows in one spelling has one spelling. -/
theorem table8 (h : HasOneSpelling form encode Fits) :
    HasOneSpelling (Table8 form) (fun values ↦ encodeTable8 (values.map encode))
      fun values ↦ values.length < UInt8.size ∧ ∀ value ∈ values, Fits value := by
  intro bytes values
  constructor
  · rintro ⟨count, hlength, hrows⟩
    obtain ⟨rfl, hfits⟩ := (h.rows _ _).mp hrows
    refine ⟨?_, hlength ▸ count.toNat_lt, hfits⟩
    simp only [encodeTable8, List.length_map, hlength, UInt8.ofNat_toNat]
  · rintro ⟨rfl, hcount, hfits⟩
    have hlength : values.length = (UInt8.ofNat (values.map encode).length).toNat := by
      rw [List.length_map, UInt8.toNat_ofNat_of_lt' hcount]
    exact .intro _ hlength (h.rows.encode_of_fits hfits)

/-- A table with a 16-bit count of rows in one spelling has one spelling. -/
theorem table16 (h : HasOneSpelling form encode Fits) :
    HasOneSpelling (Table16 form) (fun values ↦ encodeTable16 (values.map encode))
      fun values ↦ values.length < UInt16.size ∧ ∀ value ∈ values, Fits value := by
  intro bytes values
  constructor
  · rintro ⟨count, hlength, hrows⟩
    obtain ⟨rfl, hfits⟩ := (h.rows _ _).mp hrows
    refine ⟨?_, hlength ▸ count.toNat_lt, hfits⟩
    simp only [encodeTable16, List.length_map, hlength, UInt16.ofNat_toNat]
  · rintro ⟨rfl, hcount, hfits⟩
    have hlength : values.length = (UInt16.ofNat (values.map encode).length).toNat := by
      rw [List.length_map, UInt16.toNat_ofNat_of_lt' hcount]
    exact .intro _ hlength (h.rows.encode_of_fits hfits)

/-- A table with an 8-bit count of rows that are the bytes that are written has one spelling. -/
theorem table8_of_eq (encode : α → List UInt8) :
    HasOneSpelling (Table8 fun bytes value ↦ bytes = encode value)
      (fun values ↦ encodeTable8 (values.map encode)) fun values ↦ values.length < UInt8.size := by
  intro bytes values
  rw [(of_eq encode).table8 bytes values]
  simp

/-- A table with a 16-bit count of rows that are the bytes that are written has one spelling. -/
theorem table16_of_eq (encode : α → List UInt8) :
    HasOneSpelling (Table16 fun bytes value ↦ bytes = encode value)
      (fun values ↦ encodeTable16 (values.map encode)) fun values ↦
        values.length < UInt16.size := by
  intro bytes values
  rw [(of_eq encode).table16 bytes values]
  simp

end HasOneSpelling

end MonitorAudit
