import MonitorAudit.Proofs.Bytes.Failure
import MonitorAudit.Proofs.ClassFile.AnnotationEncoding

/-!
# How deep element values nest

An `ElementPlace` is where an element value starts and how many others enclose it.
`ElementValue.places` lists the places of a value and of all values in it, each value before those
that it encloses, which is the order in which they stand in the bytes. There is a place with a
number of values around it exactly if the value is higher than that number
(`ElementValue.forall_place_iff`).

`ReadsShallow limit` says of a decoder that it reads a value from its bytes unless a place in it has
`limit` values around it, and that it refuses the first such place if there is one. Sequencing and
repetition keep the notion, so it holds of element values (`ElementValue.readsShallow`), whose
levels count down while the values around them count up, and of annotations.
-/

set_option autoImplicit false

namespace MonitorAudit

/-! ### Places -/

/-- Where an element value starts, and how many others enclose it. -/
structure ElementPlace where
  offset : Nat
  enclosing : Nat
  deriving DecidableEq, Repr

mutual

/-- The places of an element value, which starts at `start` with `depth` others around it, and of
the values in it. -/
def ElementValue.places (start depth : Nat) : ElementValue → List ElementPlace
  | .const _ _ | .enum _ _ | .classRef _ => [⟨start, depth⟩]
  | .nested entry => ⟨start, depth⟩ :: entry.places (start + 1) (depth + 1)
  | .array values => ⟨start, depth⟩ :: ElementValue.placesOfEach (start + 3) (depth + 1) values

/-- The places in each of some element values. -/
def ElementValue.placesOfEach (start depth : Nat) : List ElementValue → List ElementPlace
  | [] => []
  | value :: values =>
    value.places start depth ++
      ElementValue.placesOfEach (start + value.encode.length) depth values

/-- The places in the values of some elements of an annotation. -/
def ElementPair.placesOfEach (start depth : Nat) : List ElementPair → List ElementPlace
  | [] => []
  | ⟨name, value⟩ :: pairs =>
    value.places (start + 2) depth ++
      ElementPair.placesOfEach (start + (ElementPair.mk name value).encode.length) depth pairs

/-- The places in an annotation, which starts at `start` with `depth` element values around it. -/
def AnnotationEntry.places (start depth : Nat) : AnnotationEntry → List ElementPlace
  | ⟨_, elements⟩ => ElementPair.placesOfEach (start + 4) depth elements

end

/-- The places in rows that stand one behind the other. -/
def placesOfRows {α : Type} (encode : α → List UInt8) (places : Nat → α → List ElementPlace) :
    Nat → List α → List ElementPlace
  | _, [] => []
  | start, row :: rows =>
    places start row ++ placesOfRows encode places (start + (encode row).length) rows

/-- The places in the value of an element of an annotation. -/
def ElementPair.places (start depth : Nat) (pair : ElementPair) : List ElementPlace :=
  pair.value.places (start + 2) depth

theorem ElementValue.placesOfEach_eq (start depth : Nat) (values : List ElementValue) :
    placesOfEach start depth values =
      placesOfRows encode (fun start value ↦ value.places start depth) start values := by
  induction values generalizing start with
  | nil => rfl
  | cons value values ih => rw [placesOfEach, placesOfRows, ih]

theorem ElementPair.placesOfEach_eq (start depth : Nat) (pairs : List ElementPair) :
    placesOfEach start depth pairs =
      placesOfRows encode (fun start pair ↦ pair.places start depth) start pairs := by
  induction pairs generalizing start with
  | nil => rfl
  | cons pair pairs ih =>
    cases pair
    rw [placesOfEach, placesOfRows, ih, places]

theorem AnnotationEntry.places_eq (start depth : Nat) (entry : AnnotationEntry) :
    entry.places start depth = placesOfRows ElementPair.encode
      (fun start pair ↦ pair.places start depth) (start + 4) entry.elements := by
  cases entry
  rw [places, ElementPair.placesOfEach_eq]

theorem ElementValue.places_array (start depth : Nat) (values : List ElementValue) :
    (ElementValue.array values).places start depth = ⟨start, depth⟩ :: placesOfRows encode
      (fun start value ↦ value.places start (depth + 1)) (start + 3) values := by
  rw [places, placesOfEach_eq]

/-! ### Places and heights -/

/-- What holds of the places in each row wherever it stands holds of the places in all rows. -/
theorem forall_mem_placesOfRows_iff {α : Type} {encode : α → List UInt8}
    {places : Nat → α → List ElementPlace} {property : ElementPlace → Prop}
    {ofRow : α → Prop}
    (h : ∀ row start, (∀ place ∈ places start row, property place) ↔ ofRow row) (start : Nat)
    (rows : List α) :
    (∀ place ∈ placesOfRows encode places start rows, property place) ↔
      ∀ row ∈ rows, ofRow row := by
  induction rows generalizing start with
  | nil => simp [placesOfRows]
  | cons row rows ih => rw [placesOfRows, List.forall_mem_append, h, ih, List.forall_mem_cons]

/-- In an annotation no place has so many values around it if none has in its element values. -/
theorem AnnotationEntry.forall_place_iff {limit depth levels : Nat}
    (h : ∀ (value : ElementValue) (start : Nat),
      (∀ place ∈ value.places start depth, place.enclosing ≠ limit) ↔ value.height ≤ levels)
    (entry : AnnotationEntry) (start : Nat) :
    (∀ place ∈ entry.places start depth, place.enclosing ≠ limit) ↔
      ∀ pair ∈ entry.elements, pair.value.height ≤ levels := by
  rw [places_eq]
  exact forall_mem_placesOfRows_iff (fun pair start ↦ h pair.value (start + 2)) _ _

/-- No place in a value has so many levels above it if the value has no more levels. -/
theorem ElementValue.forall_place_iff (levels : Nat) (value : ElementValue) (start depth : Nat) :
    (∀ place ∈ value.places start depth, place.enclosing ≠ depth + levels) ↔
      value.height ≤ levels := by
  induction levels generalizing value start depth with
  | zero =>
    have hheight := value.one_le_height
    have hfirst : (⟨start, depth⟩ : ElementPlace) ∈ value.places start depth := by
      cases value <;> simp [places]
    exact iff_of_false (fun hnone ↦ hnone _ hfirst rfl) (by omega)
  | succ levels ih =>
    have hfirst : depth ≠ depth + (levels + 1) := by omega
    have hinner (value : ElementValue) (start : Nat) :
        (∀ place ∈ value.places start (depth + 1), place.enclosing ≠ depth + (levels + 1)) ↔
          value.height ≤ levels := by
      rw [← ih value start (depth + 1), Nat.add_right_comm, Nat.add_assoc]
    cases value with
    | const | enum | classRef => simp [places, height]
    | nested entry =>
      rw [places, List.forall_mem_cons, height, Nat.add_le_add_iff_right,
        AnnotationEntry.innerHeight_le_iff, AnnotationEntry.forall_place_iff hinner]
      exact and_iff_right hfirst
    | array values =>
      rw [places_array, List.forall_mem_cons, height, Nat.add_le_add_iff_right,
        innerHeight_le_iff, forall_mem_placesOfRows_iff hinner]
      exact and_iff_right hfirst

/-! ### Reading up to a limit -/

/-- The decoder reads the value from its bytes, wherever they stand and whatever follows them,
unless one of the places has as many element values around it as the limit says. Otherwise it
refuses the first such place. -/
structure ReadsShallow {α : Type} (limit : Nat) (decoder : Decoder PayloadFault α)
    (bytes : List UInt8) (places : Nat → List ElementPlace) (value : α) : Prop where
  reads : ∀ (start : Nat) (tail : List UInt8),
    (places start).find? (·.enclosing = limit) = none →
      decoder ⟨bytes ++ tail, start⟩ = (.ok value, ⟨tail, start + bytes.length⟩)
  refuses : ∀ (start : Nat) (tail : List UInt8) (place : ElementPlace),
    (places start).find? (·.enclosing = limit) = some place →
      decoder.FailsWith ⟨bytes ++ tail, start⟩ (.tooDeep place.offset)

namespace ReadsShallow

variable {α β : Type} {limit : Nat} {decoder : Decoder PayloadFault α} {bytes : List UInt8}
  {places : Nat → List ElementPlace} {value : α}

/-- Bytes of a format are read if no places are in them. -/
theorem of_reads {format : Format α} (h : decoder.Reads format)
    (hbytes : ∀ start, format start bytes value) :
    ReadsShallow limit decoder bytes (fun _ ↦ []) value where
  reads start tail _ := h.run start (hbytes start) tail
  refuses _ _ _ hplace := nomatch hplace

theorem congr {other : Nat → List ElementPlace} (h : ReadsShallow limit decoder bytes places value)
    (hplaces : ∀ start, other start = places start) :
    ReadsShallow limit decoder bytes other value := by
  rwa [funext hplaces]

/-- What is read one behind the other has the places of both, in this order. -/
theorem bind {next : α → Decoder PayloadFault β} {behind : List UInt8}
    {others : Nat → List ElementPlace} {last : β}
    (hfirst : ReadsShallow limit decoder bytes places value)
    (hnext : ReadsShallow limit (next value) behind others last) :
    ReadsShallow limit (decoder >>= next) (bytes ++ behind)
      (fun start ↦ places start ++ others (start + bytes.length)) last where
  reads start tail hnone := by
    rw [List.find?_append, Option.or_eq_none_iff] at hnone
    rw [List.append_assoc, Decoder.bind_apply, hfirst.reads start _ hnone.1, List.length_append,
      ← Nat.add_assoc]
    exact hnext.reads _ tail hnone.2
  refuses start tail place hplace := by
    rw [List.find?_append] at hplace
    rw [List.append_assoc]
    cases hdeep : (places start).find? (·.enclosing = limit) with
    | some first =>
      rw [hdeep, Option.some_or] at hplace
      obtain rfl := Option.some.inj hplace
      exact Decoder.failsWith_bind_iff.mpr (.inl (hfirst.refuses start _ first hdeep))
    | none =>
      rw [hdeep, Option.none_or] at hplace
      exact Decoder.failsWith_bind_iff.mpr (.inr ⟨value, _, hfirst.reads start _ hdeep,
        hnext.refuses _ tail place hplace⟩)

theorem map (h : ReadsShallow limit decoder bytes places value) (f : α → β) :
    ReadsShallow limit (f <$> decoder) bytes places (f value) := by
  have hpure : ReadsShallow limit (Pure.pure (f value) : Decoder PayloadFault β) [] (fun _ ↦ [])
      (f value) := .of_reads (.pure _) fun _ ↦ ⟨rfl, rfl⟩
  have hbind : ReadsShallow limit (decoder >>= fun found ↦ Pure.pure (f found)) _ _ (f value) :=
    h.bind hpure
  simpa using hbind

/-- What stands behind bytes without places has its own places, further on. -/
theorem behind {next : α → Decoder PayloadFault β} {format : Format α} {behind : List UInt8}
    {others : Nat → List ElementPlace} {last : β} (hfirst : decoder.Reads format)
    (hbytes : ∀ start, format start bytes value)
    (hnext : ReadsShallow limit (next value) behind others last) :
    ReadsShallow limit (decoder >>= next) (bytes ++ behind)
      (fun start ↦ others (start + bytes.length)) last :=
  (of_reads hfirst hbytes).bind hnext

/-- Rows are read one behind the other. -/
theorem times {row : Decoder PayloadFault α} {encode : α → List UInt8}
    {placesOf : Nat → α → List ElementPlace} {values : List α}
    (h : ∀ value ∈ values, ReadsShallow limit row (encode value) (placesOf · value) value) :
    ReadsShallow limit (Decoder.times values.length row) (values.map encode).flatten
      (fun start ↦ placesOfRows encode placesOf start values) values := by
  induction values with
  | nil => exact of_reads (.pure []) fun _ ↦ ⟨rfl, rfl⟩
  | cons value values ih =>
    rw [List.forall_mem_cons] at h
    rw [List.length_cons, Decoder.times_succ, List.map_cons, List.flatten_cons]
    exact (h.1.bind ((ih h.2).map _)).congr fun start ↦ rfl

/-- A table with an 8-bit count is read row by row. -/
theorem counted8 {row : Decoder PayloadFault α} {encode : α → List UInt8}
    {placesOf : Nat → α → List ElementPlace} {values : List α}
    (h : ∀ value ∈ values, ReadsShallow limit row (encode value) (placesOf · value) value)
    (hcount : values.length < UInt8.size) :
    ReadsShallow limit (Decoder.counted8 row) (encodeTable8 (values.map encode))
      (fun start ↦ placesOfRows encode placesOf (start + 1) values) values := by
  have hlength : (UInt8.ofNat (values.map encode).length).toNat = values.length := by
    rw [List.length_map, UInt8.toNat_ofNat_of_lt' hcount]
  have hrows := times h
  rw [← hlength] at hrows
  exact (behind .u8 (fun _ ↦ rfl) hrows).congr fun start ↦ rfl

/-- A table with a 16-bit count is read row by row. -/
theorem counted16 {row : Decoder PayloadFault α} {encode : α → List UInt8}
    {placesOf : Nat → α → List ElementPlace} {values : List α}
    (h : ∀ value ∈ values, ReadsShallow limit row (encode value) (placesOf · value) value)
    (hcount : values.length < UInt16.size) :
    ReadsShallow limit (Decoder.counted16 row) (encodeTable16 (values.map encode))
      (fun start ↦ placesOfRows encode placesOf (start + 2) values) values := by
  have hlength : (UInt16.ofNat (values.map encode).length).toNat = values.length := by
    rw [List.length_map, UInt16.toNat_ofNat_of_lt' hcount]
  have hrows := times h
  rw [← hlength] at hrows
  exact (behind .u16 (fun _ ↦ rfl) hrows).congr fun start ↦ rfl

/-- What follows the offset of the cursor is read up to the limit where it is so at each offset. -/
theorem position_bind {next : Nat → Decoder PayloadFault α}
    (h : ∀ start, ReadsShallow limit (next start) bytes places value) :
    ReadsShallow limit (Decoder.position >>= next) bytes places value where
  reads start tail hnone := (h start).reads start tail hnone
  refuses start tail place hplace := (h start).refuses start tail place hplace

/-- A place above the limit is not refused. -/
theorem cons_place {depth : Nat} (h : ReadsShallow limit decoder bytes places value)
    (hdepth : depth ≠ limit) :
    ReadsShallow limit decoder bytes (fun start ↦ ⟨start, depth⟩ :: places start) value where
  reads start tail hnone := by
    rw [List.find?_cons_of_neg (by simpa using hdepth)] at hnone
    exact h.reads start tail hnone
  refuses start tail place hplace := by
    rw [List.find?_cons_of_neg (by simpa using hdepth)] at hplace
    exact h.refuses start tail place hplace

end ReadsShallow

/-! ### Annotations and element values -/

/-- An annotation whose counts the layout can hold, as those of its element values, however deep
these nest. -/
def AnnotationEntry.IsEncodable (entry : AnnotationEntry) : Prop :=
  entry.elements.length < UInt16.size ∧ ∀ pair ∈ entry.elements, pair.value.IsEncodable

/-- The value of an element is read up to the limit behind the name of the element. -/
theorem ElementPair.readsShallow_of_inner {limit depth : Nat}
    {inner : Decoder PayloadFault ElementValue} {pair : ElementPair}
    (h : ReadsShallow limit inner pair.value.encode (pair.value.places · depth) pair.value) :
    ReadsShallow limit (do
      let nameIndex ← Decoder.u16
      return ⟨nameIndex, ← inner⟩) pair.encode (pair.places · depth) pair := by
  cases pair
  rw [encode]
  exact (ReadsShallow.behind .u16 (fun _ ↦ rfl) (h.map _)).congr fun start ↦ rfl

/-- An annotation is read up to the limit if its element values are. -/
theorem AnnotationEntry.readsShallow_of_inner {limit depth : Nat}
    {inner : Decoder PayloadFault ElementValue}
    (h : ∀ value : ElementValue, value.IsEncodable →
      ReadsShallow limit inner value.encode (value.places · depth) value)
    {entry : AnnotationEntry} (hentry : entry.IsEncodable) :
    ReadsShallow limit (decodeWith inner) entry.encode (entry.places · depth) entry := by
  obtain ⟨hcount, heach⟩ := hentry
  have htable := ReadsShallow.counted16 (fun pair hpair ↦
    ElementPair.readsShallow_of_inner (h pair.value (heach pair hpair))) hcount
  cases entry with
  | mk type elements =>
    rw [encode_eq]
    refine (ReadsShallow.behind .u16 (fun _ ↦ rfl) (htable.map _)).congr fun start ↦ ?_
    rw [places_eq, length_word16]

namespace ElementValue

/-- Reads what stands behind a tag of the form, with values of at most so many levels in it. -/
def decodeFields (levels : Nat) (tag : UInt8) : ElementForm → Decoder PayloadFault ElementValue
  | .const => do return .const tag (← Decoder.u16)
  | .enum => do return .enum (← Decoder.u16) (← Decoder.u16)
  | .classRef => do return .classRef (← Decoder.u16)
  | .nested => do return .nested (← AnnotationEntry.decodeWith (decode levels))
  | .array => do return .array (← Decoder.counted16 (decode levels))

/-- A value above the limit is read up to it if what stands behind its tag is. -/
theorem readsShallow_of_form {limit levels depth : Nat} {tag : UInt8} {form : ElementForm}
    {bytes : List UInt8} {places : Nat → List ElementPlace} {value : ElementValue}
    (hform : ElementForm.ofTag? tag = some form) (hdepth : depth ≠ limit)
    (hfields : ReadsShallow limit (decodeFields levels tag form) bytes places value) :
    ReadsShallow limit (decode (levels + 1)) (tag :: bytes)
      (fun start ↦ ⟨start, depth⟩ :: places (start + 1)) value := by
  refine ReadsShallow.cons_place (.position_bind fun start ↦ .behind .u8 (fun _ ↦ rfl) ?_) hdepth
  simp only [hform]
  cases form <;> exact hfields

/-- An element value is read up to the limit if the values around it and the levels that are left
make up the limit. -/
theorem readsShallow (levels : Nat) (value : ElementValue) (depth : Nat)
    (hvalue : value.IsEncodable) :
    ReadsShallow (depth + levels) (decode levels) value.encode (value.places · depth) value := by
  induction levels generalizing value depth with
  | zero =>
    have hfirst (start : Nat) : (value.places start depth).find? (·.enclosing = depth) =
        some ⟨start, depth⟩ := by
      cases value <;> simp [places]
    refine ⟨fun start tail hnone ↦ ?_, fun start tail place hplace ↦ ?_⟩
    · rw [Nat.add_zero, hfirst] at hnone
      cases hnone
    · rw [Nat.add_zero, hfirst] at hplace
      obtain rfl := Option.some.inj hplace
      rfl
  | succ levels ih =>
    have hdepth : depth ≠ depth + (levels + 1) := by omega
    have hinner (value : ElementValue) (hvalue : value.IsEncodable) :
        ReadsShallow (depth + (levels + 1)) (decode levels) value.encode
          (value.places · (depth + 1)) value := by
      have hih := ih value (depth + 1) hvalue
      rwa [Nat.add_right_comm, Nat.add_assoc] at hih
    cases hvalue with
    | @const tag announced index =>
      have hform := (ElementForm.ofTag?_eq_some_iff tag .const).mpr announced
      rw [encode]
      exact (readsShallow_of_form hform hdepth (.of_reads (.bind_pure .u16 _)
        fun start ↦ ⟨index, rfl, rfl⟩)).congr fun start ↦ by rw [places]
    | enum typeName constName =>
      have hform : ElementForm.ofTag? 0x65 = some .enum := rfl
      rw [encode]
      exact (readsShallow_of_form hform hdepth (.of_reads (.bind .u16 fun _ ↦ .bind_pure .u16 _)
        fun start ↦ ⟨typeName, _, _, rfl, rfl, constName, rfl, rfl⟩)).congr
          fun start ↦ by rw [places]
    | classRef index =>
      have hform : ElementForm.ofTag? 0x63 = some .classRef := rfl
      rw [encode]
      exact (readsShallow_of_form hform hdepth (.of_reads (.bind_pure .u16 _)
        fun start ↦ ⟨index, rfl, rfl⟩)).congr fun start ↦ by rw [places]
    | @nested entry count_lt each =>
      have hentry := AnnotationEntry.readsShallow_of_inner hinner ⟨count_lt, each⟩
      rw [encode]
      exact (readsShallow_of_form rfl hdepth (hentry.map _)).congr fun start ↦ by rw [places]
    | @array values count_lt each =>
      have htable := ReadsShallow.counted16
        (fun value hvalue ↦ hinner value (each value hvalue)) count_lt
      rw [encode_array]
      exact (readsShallow_of_form rfl hdepth (htable.map _)).congr
        fun start ↦ by rw [places_array]

end ElementValue

/-! ### The first place at the limit -/

namespace ReadsShallow

variable {α : Type} {limit : Nat} {decoder : Decoder PayloadFault α} {bytes : List UInt8}
  {places : Nat → List ElementPlace} {value : α}

theorem reads_of_forall (h : ReadsShallow limit decoder bytes places value) {start : Nat}
    (hshallow : ∀ place ∈ places start, place.enclosing ≠ limit) (tail : List UInt8) :
    decoder ⟨bytes ++ tail, start⟩ = (.ok value, ⟨tail, start + bytes.length⟩) :=
  h.reads start tail (List.find?_eq_none.mpr (by simpa using hshallow))

/-- If a place is at the limit, the first such place is refused. -/
theorem exists_refuses (h : ReadsShallow limit decoder bytes places value) {start : Nat}
    (hdeep : ¬ ∀ place ∈ places start, place.enclosing ≠ limit) (tail : List UInt8) :
    ∃ place, (places start).find? (·.enclosing = limit) = some place ∧
      decoder.FailsWith ⟨bytes ++ tail, start⟩ (.tooDeep place.offset) := by
  cases hplace : (places start).find? (·.enclosing = limit) with
  | none => exact absurd (by simpa using List.find?_eq_none.mp hplace) hdeep
  | some place => exact ⟨place, rfl, h.refuses start tail place hplace⟩

end ReadsShallow

end MonitorAudit
