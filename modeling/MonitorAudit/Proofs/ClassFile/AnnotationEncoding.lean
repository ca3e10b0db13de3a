import MonitorAudit.Proofs.Bytes.Encoding
import MonitorAudit.Proofs.ClassFile.AnnotationLayout

/-!
# Annotations written as bytes

`ElementValue.encode`, `AnnotationEntry.encode` and `TypeAnnotationEntry.encode` write annotations
in the layout of a class file. An element value can be written if its constants have the tags of
constants and its counts fit (`ElementValue.IsEncodable`); how deep values enclose each other is its
`ElementValue.height`.

`ElementValue.hasOneSpelling`, `AnnotationEntry.hasOneSpelling` and
`TypeAnnotationEntry.hasOneSpelling` say that the bytes in the layout of a value are those that are
written for it and no others, so reading and writing undo each other.
-/

set_option autoImplicit false

namespace MonitorAudit

/-! ### Writing element values -/

mutual

/-- The bytes of an element value. -/
def ElementValue.encode : ElementValue → List UInt8
  | .const tag index => tag :: word16 index
  | .enum typeName constName => 0x65 :: (word16 typeName ++ word16 constName)
  | .classRef index => 0x63 :: word16 index
  | .nested entry => 0x40 :: entry.encode
  | .array values => 0x5B :: encodeTable16 (ElementValue.encodeEach values)

/-- The bytes of each of some element values. -/
def ElementValue.encodeEach : List ElementValue → List (List UInt8)
  | [] => []
  | value :: values => value.encode :: ElementValue.encodeEach values

/-- The bytes of an element of an annotation with its value. -/
def ElementPair.encode : ElementPair → List UInt8
  | ⟨name, value⟩ => word16 name ++ value.encode

/-- The bytes of each of some elements of an annotation. -/
def ElementPair.encodeEach : List ElementPair → List (List UInt8)
  | [] => []
  | pair :: pairs => pair.encode :: ElementPair.encodeEach pairs

/-- The bytes of an annotation. -/
def AnnotationEntry.encode : AnnotationEntry → List UInt8
  | ⟨type, elements⟩ => word16 type ++ encodeTable16 (ElementPair.encodeEach elements)

end

theorem ElementValue.encodeEach_eq_map (values : List ElementValue) :
    encodeEach values = values.map encode := by
  induction values with
  | nil => rfl
  | cons value values ih => rw [encodeEach, ih, List.map_cons]

theorem ElementPair.encodeEach_eq_map (pairs : List ElementPair) :
    encodeEach pairs = pairs.map encode := by
  induction pairs with
  | nil => rfl
  | cons pair pairs ih => rw [encodeEach, ih, List.map_cons]

theorem ElementPair.encode_eq (pair : ElementPair) :
    pair.encode = word16 pair.nameIndex ++ pair.value.encode := by
  cases pair
  rw [encode]

theorem AnnotationEntry.encode_eq (entry : AnnotationEntry) :
    entry.encode =
      word16 entry.typeIndex ++ encodeTable16 (entry.elements.map ElementPair.encode) := by
  cases entry
  rw [encode, ElementPair.encodeEach_eq_map]

theorem ElementValue.encode_array (values : List ElementValue) :
    (ElementValue.array values).encode = 0x5B :: encodeTable16 (values.map encode) := by
  rw [encode, encodeEach_eq_map]

/-! ### What can be written -/

/-- The element values whose tags and counts the layout can hold, however deep they nest. -/
inductive ElementValue.IsEncodable : ElementValue → Prop
  | const {tag : UInt8} (announced : tag ∈ ElementForm.const.tags) (index : UInt16) :
    IsEncodable (.const tag index)
  | enum (typeName constName : UInt16) : IsEncodable (.enum typeName constName)
  | classRef (index : UInt16) : IsEncodable (.classRef index)
  | nested {entry : AnnotationEntry} (count_lt : entry.elements.length < UInt16.size)
      (each : ∀ pair ∈ entry.elements, IsEncodable pair.value) : IsEncodable (.nested entry)
  | array {values : List ElementValue} (count_lt : values.length < UInt16.size)
      (each : ∀ value ∈ values, IsEncodable value) : IsEncodable (.array values)

mutual

/-- How many element values enclose each other at the deepest place of a value, itself included. -/
def ElementValue.height : ElementValue → Nat
  | .const _ _ | .enum _ _ | .classRef _ => 1
  | .nested entry => entry.innerHeight + 1
  | .array values => ElementValue.innerHeight values + 1

/-- The largest height of some element values, or zero where there are none. -/
def ElementValue.innerHeight : List ElementValue → Nat
  | [] => 0
  | value :: values => max value.height (ElementValue.innerHeight values)

/-- The largest height of the values of some elements, or zero where there are none. -/
def ElementPair.innerHeight : List ElementPair → Nat
  | [] => 0
  | ⟨_, value⟩ :: pairs => max value.height (ElementPair.innerHeight pairs)

/-- The largest height of the element values of an annotation, or zero where there are none. -/
def AnnotationEntry.innerHeight : AnnotationEntry → Nat
  | ⟨_, elements⟩ => ElementPair.innerHeight elements

end

theorem ElementValue.innerHeight_le_iff (values : List ElementValue) (levels : Nat) :
    innerHeight values ≤ levels ↔ ∀ value ∈ values, value.height ≤ levels := by
  induction values with
  | nil => simp [innerHeight]
  | cons value values ih => rw [innerHeight, Nat.max_le, ih, List.forall_mem_cons]

theorem ElementPair.innerHeight_le_iff (pairs : List ElementPair) (levels : Nat) :
    innerHeight pairs ≤ levels ↔ ∀ pair ∈ pairs, pair.value.height ≤ levels := by
  induction pairs with
  | nil => simp [innerHeight]
  | cons pair pairs ih =>
    cases pair
    rw [innerHeight, Nat.max_le, ih, List.forall_mem_cons]

theorem AnnotationEntry.innerHeight_le_iff (entry : AnnotationEntry) (levels : Nat) :
    entry.innerHeight ≤ levels ↔ ∀ pair ∈ entry.elements, pair.value.height ≤ levels := by
  cases entry
  rw [innerHeight, ElementPair.innerHeight_le_iff]

theorem ElementValue.one_le_height (value : ElementValue) : 1 ≤ value.height := by
  cases value <;> simp [height]

/-- An element value of at most so many levels whose tags and counts the layout can hold. -/
def ElementValue.Fits (levels : Nat) (value : ElementValue) : Prop :=
  value.IsEncodable ∧ value.height ≤ levels

/-- An annotation whose count fits, with element values of at most so many levels that fit. -/
def AnnotationEntry.FitsIn (levels : Nat) (entry : AnnotationEntry) : Prop :=
  entry.elements.length < UInt16.size ∧ ∀ pair ∈ entry.elements, pair.value.Fits levels

/-- An annotation that can be written: its counts fit, its constants have the tags of constants, and
its element values do not nest too deep. -/
def AnnotationEntry.Fits (entry : AnnotationEntry) : Prop := entry.FitsIn maxElementLevels

/-- An annotation as an element value takes one level more than its own values. -/
theorem ElementValue.fits_nested_iff (levels : Nat) (entry : AnnotationEntry) :
    (ElementValue.nested entry).Fits (levels + 1) ↔ entry.FitsIn levels := by
  have hheight : (ElementValue.nested entry).height ≤ levels + 1 ↔
      ∀ pair ∈ entry.elements, pair.value.height ≤ levels := by
    rw [height, Nat.add_le_add_iff_right, AnnotationEntry.innerHeight_le_iff]
  rw [Fits, hheight]
  constructor
  · rintro ⟨hencodable, hlevels⟩
    cases hencodable with
    | nested hcount heach =>
      exact ⟨hcount, fun pair hpair ↦ ⟨heach pair hpair, hlevels pair hpair⟩⟩
  · rintro ⟨hcount, hfits⟩
    exact ⟨.nested hcount fun pair hpair ↦ (hfits pair hpair).1,
      fun pair hpair ↦ (hfits pair hpair).2⟩

/-- An array takes one level more than its values. -/
theorem ElementValue.fits_array_iff (levels : Nat) (values : List ElementValue) :
    (ElementValue.array values).Fits (levels + 1) ↔
      values.length < UInt16.size ∧ ∀ value ∈ values, value.Fits levels := by
  have hheight : (ElementValue.array values).height ≤ levels + 1 ↔
      ∀ value ∈ values, value.height ≤ levels := by
    rw [height, Nat.add_le_add_iff_right, innerHeight_le_iff]
  rw [Fits, hheight]
  constructor
  · rintro ⟨hencodable, hlevels⟩
    cases hencodable with
    | array hcount heach =>
      exact ⟨hcount, fun value hvalue ↦ ⟨heach value hvalue, hlevels value hvalue⟩⟩
  · rintro ⟨hcount, hfits⟩
    exact ⟨.array hcount fun value hvalue ↦ (hfits value hvalue).1,
      fun value hvalue ↦ (hfits value hvalue).2⟩

/-! ### One spelling -/

/-- Where element values have one spelling, so have the elements of an annotation. -/
theorem ElementPair.hasOneSpelling {inner : List UInt8 → ElementValue → Prop}
    {Fits : ElementValue → Prop} (h : HasOneSpelling inner ElementValue.encode Fits) :
    HasOneSpelling (PairShape inner) encode fun pair ↦ Fits pair.value := by
  intro bytes pair
  rw [encode_eq]
  constructor
  · rintro ⟨name, behind⟩
    obtain ⟨rfl, hfits⟩ := (h _ _).mp behind
    exact ⟨rfl, hfits⟩
  · rintro ⟨rfl, hfits⟩
    cases pair
    exact .intro _ (h.encode_of_fits hfits)

/-- Where element values of so many levels have one spelling, so have annotations with them. -/
theorem AnnotationEntry.hasOneSpelling_of_inner {inner : List UInt8 → ElementValue → Prop}
    {levels : Nat} (h : HasOneSpelling inner ElementValue.encode (ElementValue.Fits levels)) :
    HasOneSpelling (AnnotationShape inner) encode (FitsIn levels) := by
  have htable := (ElementPair.hasOneSpelling h).table16
  intro bytes entry
  rw [encode_eq]
  constructor
  · rintro ⟨type, table⟩
    obtain ⟨rfl, hfits⟩ := (htable _ _).mp table
    exact ⟨rfl, hfits⟩
  · rintro ⟨rfl, hfits⟩
    cases entry
    exact .intro _ (htable.encode_of_fits hfits)

/-- Element values of at most so many levels have one spelling. -/
theorem ElementValue.hasOneSpelling (levels : Nat) :
    HasOneSpelling (ElementBytes levels) encode (Fits levels) := by
  induction levels with
  | zero =>
    intro bytes value
    have hheight := value.one_le_height
    refine ⟨False.elim, fun ⟨_, _, hlevels⟩ ↦ ?_⟩
    omega
  | succ levels ih =>
    have hentry := AnnotationEntry.hasOneSpelling_of_inner ih
    intro bytes value
    constructor
    · rintro ⟨announced, behind⟩
      cases behind with
      | const index => exact ⟨rfl, .const announced index, Nat.le_add_left 1 levels⟩
      | enum typeName constName =>
        obtain rfl := List.mem_singleton.mp announced
        exact ⟨rfl, .enum typeName constName, Nat.le_add_left 1 levels⟩
      | classRef index =>
        obtain rfl := List.mem_singleton.mp announced
        exact ⟨rfl, .classRef index, Nat.le_add_left 1 levels⟩
      | nested behind =>
        obtain rfl := List.mem_singleton.mp announced
        obtain ⟨rfl, hfits⟩ := (hentry _ _).mp behind
        exact ⟨rfl, (fits_nested_iff levels _).mpr hfits⟩
      | array table =>
        obtain rfl := List.mem_singleton.mp announced
        obtain ⟨rfl, hfits⟩ := (ih.table16 _ _).mp table
        exact ⟨by rw [encode_array], (fits_array_iff levels _).mpr hfits⟩
    · rintro ⟨rfl, hfits⟩
      cases value with
      | const tag index =>
        obtain ⟨⟨announced⟩, -⟩ := hfits
        exact .intro announced (.const index)
      | enum typeName constName =>
        exact .intro (List.mem_singleton_self _) (.enum typeName constName)
      | classRef index => exact .intro (List.mem_singleton_self _) (.classRef index)
      | nested entry =>
        rw [fits_nested_iff] at hfits
        exact .intro (List.mem_singleton_self _) (.nested (hentry.encode_of_fits hfits))
      | array values =>
        rw [fits_array_iff] at hfits
        rw [encode_array]
        exact .intro (List.mem_singleton_self _) (.array (ih.table16.encode_of_fits hfits))

/-- Annotations have one spelling. -/
theorem AnnotationEntry.hasOneSpelling : HasOneSpelling AnnotationBytes encode Fits :=
  hasOneSpelling_of_inner (ElementValue.hasOneSpelling maxElementLevels)

/-! ### Annotations on types -/

/-- The kind of place that a target is. -/
def TypeTarget.form : TypeTarget → TargetForm
  | typeParameter _ => .typeParameter
  | supertype _ => .supertype
  | typeParameterBound _ _ => .typeParameterBound
  | empty => .empty
  | formalParameter _ => .formalParameter
  | throws _ => .throws
  | localVariable _ => .localVariable
  | exceptionParameter _ => .exceptionParameter
  | offset _ => .offset
  | typeArgument _ _ => .typeArgument

/-- The bytes of a target. -/
def TypeTarget.encode : TypeTarget → List UInt8
  | typeParameter index => [index]
  | supertype index => word16 index
  | typeParameterBound parameter bound => [parameter, bound]
  | empty => []
  | formalParameter index => [index]
  | throws index => word16 index
  | localVariable ranges => encodeTable16 (ranges.map LocalVariableRange.encode)
  | exceptionParameter handler => word16 handler
  | offset start => word16 start
  | typeArgument start argument => word16 start ++ [argument]

/-- Whether the layout can hold the count of a target, if it has one. -/
def TypeTarget.Fits : TypeTarget → Prop
  | localVariable ranges => ranges.length < UInt16.size
  | _ => True

/-- The bytes of an annotation on a use of a type. -/
def TypeAnnotationEntry.encode (typed : TypeAnnotationEntry) : List UInt8 :=
  typed.targetType :: (typed.target.encode ++
    (encodeTable8 (typed.path.map TypePathStep.encode) ++ typed.entry.encode))

/-- An annotation on a use of a type that can be written: the byte in front announces its target,
and its counts and its annotation fit. -/
structure TypeAnnotationEntry.Fits (typed : TypeAnnotationEntry) : Prop where
  announced : typed.targetType ∈ typed.target.form.types
  target : typed.target.Fits
  path : typed.path.length < UInt8.size
  entry : typed.entry.Fits

/-- The places of a kind have one spelling. -/
theorem TypeTarget.hasOneSpelling (form : TargetForm) :
    HasOneSpelling (TargetBytes form) encode fun target ↦ target.form = form ∧ target.Fits := by
  have htable := HasOneSpelling.table16_of_eq LocalVariableRange.encode
  intro bytes target
  constructor
  · intro htarget
    cases htarget with
    | localVariable table =>
      obtain ⟨rfl, hcount⟩ := (htable _ _).mp table
      exact ⟨rfl, rfl, hcount⟩
    | _ => exact ⟨rfl, rfl, trivial⟩
  · rintro ⟨rfl, rfl, hfits⟩
    cases target with
    | localVariable ranges => exact .localVariable (htable.encode_of_fits hfits)
    | _ => constructor

/-- Annotations on uses of types have one spelling. -/
theorem TypeAnnotationEntry.hasOneSpelling : HasOneSpelling TypeAnnotationBytes encode Fits := by
  have hpath := HasOneSpelling.table8_of_eq TypePathStep.encode
  intro bytes typed
  constructor
  · rintro ⟨announced, targetBytes, pathTable, behind⟩
    obtain ⟨rfl, rfl, htarget⟩ := (TypeTarget.hasOneSpelling _ _ _).mp targetBytes
    obtain ⟨rfl, hcount⟩ := (hpath _ _).mp pathTable
    obtain ⟨rfl, hentry⟩ := (AnnotationEntry.hasOneSpelling _ _).mp behind
    exact ⟨rfl, announced, htarget, hcount, hentry⟩
  · rintro ⟨rfl, announced, htarget, hcount, hentry⟩
    exact .intro announced ((TypeTarget.hasOneSpelling _).encode_of_fits ⟨rfl, htarget⟩)
      (hpath.encode_of_fits hcount)
      (AnnotationEntry.hasOneSpelling.encode_of_fits hentry)

end MonitorAudit
