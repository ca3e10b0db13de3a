import MonitorAudit.Proofs.Checked.Attribute
import MonitorAudit.Proofs.ClassFile.AttributeEncoding
import MonitorAudit.Proofs.ClassFile.DeclaredLength
import MonitorAudit.Proofs.ClassFile.ElementNesting

/-!
# The limit on nested element values

The attributes that hold annotations read each of their outermost element values up to the same
limit (`Attribute.exists_readsShallow`), so a record of one is read exactly if none of its element
values is too high (`Attribute.IsAnnotating.decode_eq`), and otherwise it is refused for the first
place that too many enclose (`Attribute.IsAnnotating.exists_failsWith`). `LimitsNesting` says this
of a decoder. What is read from any bytes at all holds no higher values
(`Attribute.height_le_of_decode`).

`nesting_limit_is_exact` puts this together with the machine that counts the values around a value
and enters no more of them than the limit allows. `ElementValue.tower` goes through arrays and
annotations in turn, which count the values around them in different places.
-/

set_option autoImplicit false

namespace MonitorAudit

/-! ### Element values that no other encloses -/

/-- An element value that no other encloses is read up to the limit. -/
theorem ElementValue.readsShallow_outermost {value : ElementValue} (h : value.IsEncodable) :
    ReadsShallow maxElementLevels (decode maxElementLevels) value.encode (value.places · 0)
      value := by
  have hread := value.readsShallow maxElementLevels 0 h
  rwa [Nat.zero_add] at hread

/-- In such a value no place is at the limit if the value is not higher than that. -/
theorem ElementValue.forall_place_ne_limit_iff (value : ElementValue) (start : Nat) :
    (∀ place ∈ value.places start 0, place.enclosing ≠ maxElementLevels) ↔
      value.height ≤ maxElementLevels := by
  rw [← value.forall_place_iff maxElementLevels start 0, Nat.zero_add]

/-! ### Annotations on types -/

/-- An annotation on a use of a type whose counts and tags the layout can hold, however deep its
element values nest. -/
structure TypeAnnotationEntry.IsEncodable (typed : TypeAnnotationEntry) : Prop where
  announced : typed.targetType ∈ typed.target.form.types
  target : typed.target.Fits
  path : typed.path.length < UInt8.size
  entry : typed.entry.IsEncodable

/-- The places in an annotation on a use of a type, which starts at `start`. -/
def TypeAnnotationEntry.places (start : Nat) (typed : TypeAnnotationEntry) : List ElementPlace :=
  let front := typed.target.encode ++ encodeTable8 (typed.path.map TypePathStep.encode)
  typed.entry.places (start + 1 + front.length) 0

/-- An annotation that no element value encloses is read up to the limit. -/
theorem AnnotationEntry.readsShallow {entry : AnnotationEntry} (h : entry.IsEncodable) :
    ReadsShallow maxElementLevels decode entry.encode (entry.places · 0) entry :=
  readsShallow_of_inner (fun _ ↦ ElementValue.readsShallow_outermost) h

/-- An annotation on a use of a type is read up to the limit behind the place that it targets. -/
theorem TypeAnnotationEntry.readsShallow {typed : TypeAnnotationEntry} (h : typed.IsEncodable) :
    ReadsShallow maxElementLevels decode typed.encode (typed.places ·) typed := by
  have hform := (TargetForm.ofType?_eq_some_iff _ _).mpr h.announced
  have htarget := (TypeTarget.hasOneSpelling _).encode_of_fits ⟨rfl, h.target⟩
  have hpath := (HasOneSpelling.table8_of_eq TypePathStep.encode).encode_of_fits h.path
  have hentry := AnnotationEntry.readsShallow h.entry
  have hfields : ReadsShallow maxElementLevels (do
      let target ← typed.target.form.decode
      let path ← Decoder.counted8 do
        return ⟨← Decoder.u8, ← Decoder.u8⟩
      let entry ← AnnotationEntry.decode
      return (⟨typed.targetType, target, path, entry⟩ : TypeAnnotationEntry)) _ _ typed :=
    .behind (TargetForm.reads_decode _) (fun _ ↦ htarget)
      (.behind TypePathStep.reads_decode.counted8 (fun _ ↦ hpath) (hentry.map _))
  refine (ReadsShallow.position_bind fun start ↦ .behind .u8 (fun _ ↦ rfl) (by
    simp only [hform]
    exact hfields)).congr fun start ↦ ?_
  rw [places, List.length_append, ← Nat.add_assoc]
  rfl

/-! ### Attributes that hold annotations -/

mutual

/-- The element values of an attribute that no other encloses, and those of the attributes inside
it. Values inside them are lower than they are. -/
def Attribute.elementValues : Attribute → List ElementValue
  | .code body => body.elementValues
  | .annotations _ entries => entries.flatMap fun entry ↦ entry.elements.map (·.value)
  | .parameterAnnotations _ parameters =>
    parameters.flatMap fun entries ↦ entries.flatMap fun entry ↦ entry.elements.map (·.value)
  | .typeAnnotations _ entries => entries.flatMap fun typed ↦ typed.entry.elements.map (·.value)
  | .annotationDefault value => [value]
  | _ => []

/-- The element values of each of some attributes. -/
def Attribute.elementValuesOfEach : List Attribute → List ElementValue
  | [] => []
  | value :: values => value.elementValues ++ Attribute.elementValuesOfEach values

/-- The element values of the attributes inside a body. -/
def Code.elementValues : Code → List ElementValue
  | ⟨_, _, _, _, attributes⟩ => Attribute.elementValuesOfEach attributes

end

/-- An attribute that is made of element values, with counts and tags that the layout can hold,
however deep these nest. -/
def Attribute.IsAnnotating : Attribute → Prop
  | .annotations _ entries => entries.length < UInt16.size ∧ ∀ entry ∈ entries, entry.IsEncodable
  | .parameterAnnotations _ parameters =>
    parameters.length < UInt8.size ∧ ∀ entries ∈ parameters,
      entries.length < UInt16.size ∧ ∀ entry ∈ entries, entry.IsEncodable
  | .typeAnnotations _ entries =>
    entries.length < UInt16.size ∧ ∀ typed ∈ entries, typed.IsEncodable
  | .annotationDefault value => value.IsEncodable
  | _ => False

/-- The places in some annotations, the first of which starts at `start`. -/
def AnnotationEntry.placesOfEach : Nat → List AnnotationEntry → List ElementPlace :=
  placesOfRows encode fun start entry ↦ entry.places start 0

/-- The places in an attribute that is made of element values, whose payload starts at `start`. -/
def Attribute.places (start : Nat) : Attribute → List ElementPlace
  | .annotations _ entries => AnnotationEntry.placesOfEach (start + 2) entries
  | .parameterAnnotations _ parameters =>
    placesOfRows (fun entries ↦ encodeTable16 (entries.map AnnotationEntry.encode))
      (fun start entries ↦ AnnotationEntry.placesOfEach (start + 2) entries) (start + 1) parameters
  | .typeAnnotations _ entries =>
    placesOfRows TypeAnnotationEntry.encode TypeAnnotationEntry.places (start + 2) entries
  | .annotationDefault value => value.places start 0
  | _ => []

/-- The payload of an attribute that is made of element values is read up to the limit. -/
theorem Attribute.exists_readsShallow {value : Attribute} (h : value.IsAnnotating)
    (spelling : Spelling) :
    ∃ kind : AttributeKind, value.name = kind.name ∧ kind ≠ .lineNumberTable ∧ ReadsShallow
      maxElementLevels kind.decode (value.payload spelling) (value.places ·) value := by
  cases value with
  | annotations visible entries =>
    exact ⟨.annotations visible, rfl, by simp, (ReadsShallow.counted16
      (fun entry hentry ↦ AnnotationEntry.readsShallow (h.2 entry hentry)) h.1).map _⟩
  | parameterAnnotations visible parameters =>
    refine ⟨.parameterAnnotations visible, rfl, by simp, (ReadsShallow.counted8
      (fun entries hentries ↦ ?_) h.1).map _⟩
    obtain ⟨hcount, heach⟩ := h.2 entries hentries
    exact ReadsShallow.counted16
      (fun entry hentry ↦ AnnotationEntry.readsShallow (heach entry hentry)) hcount
  | typeAnnotations visible entries =>
    exact ⟨.typeAnnotations visible, rfl, by simp, (ReadsShallow.counted16
      (fun typed htyped ↦ TypeAnnotationEntry.readsShallow (h.2 typed htyped)) h.1).map _⟩
  | annotationDefault value =>
    exact ⟨.annotationDefault, rfl, by simp, (ElementValue.readsShallow_outermost h).map _⟩
  | _ => exact h.elim

/-! ### Places and heights in attributes -/

/-- In an annotation no place is at the limit if its element values are not higher than that. -/
theorem AnnotationEntry.forall_place_ne_limit_iff (entry : AnnotationEntry) (start : Nat) :
    (∀ place ∈ entry.places start 0, place.enclosing ≠ maxElementLevels) ↔
      ∀ pair ∈ entry.elements, pair.value.height ≤ maxElementLevels :=
  entry.forall_place_iff ElementValue.forall_place_ne_limit_iff start

theorem AnnotationEntry.forall_placesOfEach_ne_limit_iff (entries : List AnnotationEntry)
    (start : Nat) :
    (∀ place ∈ placesOfEach start entries, place.enclosing ≠ maxElementLevels) ↔
      ∀ entry ∈ entries, ∀ pair ∈ entry.elements, pair.value.height ≤ maxElementLevels :=
  forall_mem_placesOfRows_iff forall_place_ne_limit_iff start entries

/-- In an attribute no place is at the limit if its element values are not higher than that. -/
theorem Attribute.forall_place_ne_limit_iff {value : Attribute} (h : value.IsAnnotating)
    (start : Nat) :
    (∀ place ∈ value.places start, place.enclosing ≠ maxElementLevels) ↔
      ∀ element ∈ value.elementValues, element.height ≤ maxElementLevels := by
  cases value with
  | annotations visible entries =>
    simp only [places, elementValues, List.forall_mem_flatMap, List.forall_mem_map]
    exact AnnotationEntry.forall_placesOfEach_ne_limit_iff entries (start + 2)
  | parameterAnnotations visible parameters =>
    simp only [places, elementValues, List.forall_mem_flatMap, List.forall_mem_map]
    exact forall_mem_placesOfRows_iff (fun entries start ↦
      AnnotationEntry.forall_placesOfEach_ne_limit_iff entries (start + 2)) _ parameters
  | typeAnnotations visible entries =>
    simp only [places, elementValues, List.forall_mem_flatMap, List.forall_mem_map]
    exact forall_mem_placesOfRows_iff (fun typed start ↦
      AnnotationEntry.forall_place_ne_limit_iff typed.entry _) _ entries
  | annotationDefault value =>
    simp only [places, elementValues, List.forall_mem_singleton]
    exact value.forall_place_ne_limit_iff start
  | _ => exact h.elim

/-! ### Decoders that limit nesting -/

/-- The decoder reads a value from its bytes, and stops behind them, exactly if none of the element
values in it is higher than 256. Otherwise it refuses the first place in the bytes that 256 element
values enclose. -/
structure LimitsNesting {ε α : Type} (decoder : Decoder ε α) (fault : Nat → ε) (bytes : List UInt8)
    (places : Nat → List ElementPlace) (elements : List ElementValue) (value : α) : Prop where
  reads_iff : ∀ (start : Nat) (tail : List UInt8),
    decoder ⟨bytes ++ tail, start⟩ = (.ok value, ⟨tail, start + bytes.length⟩) ↔
      ∀ element ∈ elements, element.height ≤ 256
  refuses : (∃ element ∈ elements, 256 < element.height) → ∀ (start : Nat) (tail : List UInt8),
    ∃ place, (places start).find? (·.enclosing = 256) = some place ∧
      decoder.FailsWith ⟨bytes ++ tail, start⟩ (fault place.offset)

section LimitsNesting

variable {ε α : Type} {decoder : Decoder ε α} {fault : Nat → ε} {bytes : List UInt8}
  {places : Nat → List ElementPlace} {elements : List ElementValue} {value : α}

/-- A decoder that refuses what is too high reads nothing that is. -/
theorem LimitsNesting.of_cases
    (hreads : (∀ element ∈ elements, element.height ≤ maxElementLevels) →
      ∀ (start : Nat) (tail : List UInt8),
        decoder ⟨bytes ++ tail, start⟩ = (.ok value, ⟨tail, start + bytes.length⟩))
    (hrefuses : (¬ ∀ element ∈ elements, element.height ≤ maxElementLevels) →
      ∀ (start : Nat) (tail : List UInt8),
        ∃ place, (places start).find? (·.enclosing = maxElementLevels) = some place ∧
          decoder.FailsWith ⟨bytes ++ tail, start⟩ (fault place.offset)) :
    LimitsNesting decoder fault bytes places elements value where
  reads_iff start tail := by
    refine ⟨fun hread ↦ ?_, fun hshallow ↦ hreads hshallow start tail⟩
    by_contra hdeep
    obtain ⟨place, -, hfails⟩ := hrefuses hdeep start tail
    exact Decoder.not_failsWith_of_ok hread _ hfails
  refuses hdeep := hrefuses fun hshallow ↦ by
    obtain ⟨element, helement, hheight⟩ := hdeep
    exact Nat.not_le_of_lt hheight (hshallow element helement)

/-- The place that is refused is the one that is found. -/
theorem LimitsNesting.failsWith_of_find?
    (h : LimitsNesting decoder fault bytes places elements value)
    (hdeep : ∃ element ∈ elements, 256 < element.height) {start : Nat} {place : ElementPlace}
    (hplace : (places start).find? (·.enclosing = 256) = some place) (tail : List UInt8) :
    decoder.FailsWith ⟨bytes ++ tail, start⟩ (fault place.offset) := by
  obtain ⟨found, hfound, hfails⟩ := h.refuses hdeep start tail
  obtain rfl := Option.some.inj (hfound.symm.trans hplace)
  exact hfails

/-- What is read up to the limit of places is read up to the limit of heights. -/
theorem ReadsShallow.limitsNesting {decoder : Decoder PayloadFault α}
    (h : ReadsShallow maxElementLevels decoder bytes places value)
    (hplaces : ∀ start, (∀ place ∈ places start, place.enclosing ≠ maxElementLevels) ↔
      ∀ element ∈ elements, element.height ≤ maxElementLevels) :
    LimitsNesting decoder .tooDeep bytes places elements value :=
  .of_cases (fun hshallow start tail ↦ h.reads_of_forall ((hplaces start).mpr hshallow) tail)
    fun hdeep start tail ↦ h.exists_refuses ((hplaces start).not.mpr hdeep) tail

end LimitsNesting

/-- An element value that no other encloses is read up to the limit of its height. -/
theorem ElementValue.limitsNesting {value : ElementValue} (h : value.IsEncodable) :
    LimitsNesting (decode maxElementLevels) .tooDeep value.encode (value.places · 0) [value]
      value := by
  refine (readsShallow_outermost h).limitsNesting fun start ↦ ?_
  rw [List.forall_mem_singleton]
  exact value.forall_place_ne_limit_iff start

/-- A payload that is made of element values is read up to the limit of their heights. -/
theorem Attribute.IsAnnotating.limitsNesting {value : Attribute} (h : value.IsAnnotating)
    {kind : AttributeKind} (hname : value.name = kind.name) (spelling : Spelling) :
    LimitsNesting kind.decode .tooDeep (value.payload spelling) (value.places ·)
      value.elementValues value := by
  obtain ⟨other, hother, -, hread⟩ := exists_readsShallow h spelling
  obtain rfl := AttributeKind.name_injective (hother.symm.trans hname)
  exact hread.limitsNesting (forall_place_ne_limit_iff h)

/-! ### Records of such attributes -/

section Record

variable {pool : ConstantPool} {level : RecordLevel} {spelling : Spelling} {value : Attribute}

/-- The record of an attribute that is made of element values is read by its kind. -/
theorem Attribute.IsAnnotating.exists_decode_eq (h : value.IsAnnotating) (level : RecordLevel)
    (hname : pool.utf8? spelling.nameIndex = .ok value.name)
    (hlength : (value.payload spelling).length < UInt32.size) (start : Nat) (tail : List UInt8) :
    ∃ (kind : AttributeKind) (header : AttributeHeader), header.name = value.name ∧
      header.length.toNat = (value.payload spelling).length ∧
      header.name ≠ AttributeKind.lineNumberTable.name ∧
      ReadsShallow maxElementLevels kind.decode (value.payload spelling) (value.places ·) value ∧
      level.decode pool ⟨value.encode spelling ++ tail, start⟩ =
        decodeDelimited header kind.decode ⟨value.payload spelling ++ tail, start + 6⟩ := by
  obtain ⟨kind, hkind, hlines, hread⟩ := exists_readsShallow h spelling
  have hwidth := UInt32.toNat_ofNat_of_lt' hlength
  have hfront : FrontAt pool ⟨value.encode spelling ++ tail, start⟩
      ⟨start, value.name, UInt32.ofNat (value.payload spelling).length⟩
      (value.payload spelling ++ tail) := by
    refine .intro ?_ hname
    rw [encode, encodeRecord, List.append_assoc, List.append_assoc]
  exact ⟨kind, _, rfl, hwidth, (AttributeKind.ne_lineNumberTable_iff hkind).mpr hlines, hread,
    hfront.decode_eq (.known hkind)⟩

/-- A record is read if none of its element values is higher than the limit. -/
theorem Attribute.IsAnnotating.decode_eq (h : value.IsAnnotating)
    (hname : pool.utf8? spelling.nameIndex = .ok value.name)
    (hlength : (value.payload spelling).length < UInt32.size)
    (hheight : ∀ element ∈ value.elementValues, element.height ≤ maxElementLevels) (start : Nat)
    (tail : List UInt8) :
    level.decode pool ⟨value.encode spelling ++ tail, start⟩ =
      (.ok value, ⟨tail, start + (value.encode spelling).length⟩) := by
  obtain ⟨kind, header, -, hwidth, -, hread, hdecode⟩ :=
    h.exists_decode_eq level hname hlength start tail
  have hpayload := hread.reads_of_forall ((forall_place_ne_limit_iff h (start + 6)).mpr hheight) []
  have hsize : (value.encode spelling).length = 6 + (value.payload spelling).length := by
    simp only [encode, encodeRecord, List.length_append, length_word16, length_word32]
    omega
  have hwindow : (Decoder.window header.length.toNat : Decoder ClassFault Cursor)
      ⟨value.payload spelling ++ tail, start + 6⟩ =
        (.ok ⟨value.payload spelling, start + 6⟩,
          ⟨tail, start + (value.encode spelling).length⟩) := by
    rw [hsize, ← Nat.add_assoc]
    exact (Decoder.Reads.window header.length.toNat).run (start + 6) ⟨rfl, hwidth.symm⟩ tail
  have hinterpret : header.interpret kind.decode ⟨value.payload spelling, start + 6⟩ =
      .ok value := by
    rw [List.append_nil] at hpayload
    rw [AttributeHeader.interpret, hpayload]
    rfl
  rw [hdecode, decodeDelimited, Decoder.bind_apply, hwindow]
  simp only [hinterpret]
  rfl

/-- A record is refused for the first of its element values that too many enclose. -/
theorem Attribute.IsAnnotating.exists_failsWith (h : value.IsAnnotating)
    (hname : pool.utf8? spelling.nameIndex = .ok value.name)
    (hlength : (value.payload spelling).length < UInt32.size)
    (hheight : ¬ ∀ element ∈ value.elementValues, element.height ≤ maxElementLevels) (start : Nat)
    (tail : List UInt8) :
    ∃ place, (value.places (start + 6)).find? (·.enclosing = maxElementLevels) = some place ∧
      (level.decode pool).FailsWith ⟨value.encode spelling ++ tail, start⟩
        (.record (.tooDeep value.name place.offset maxElementLevels)) := by
  obtain ⟨kind, header, hheader, hwidth, hlines, hread, hdecode⟩ :=
    h.exists_decode_eq level hname hlength start tail
  obtain ⟨place, hplace, hfails⟩ :=
    hread.exists_refuses ((forall_place_ne_limit_iff h (start + 6)).not.mpr hheight) []
  refine ⟨place, hplace, ?_⟩
  have hinterpret : header.interpret kind.decode ⟨value.payload spelling, start + 6⟩ =
      .error (.record (.tooDeep value.name place.offset maxElementLevels)) := by
    rw [List.append_nil] at hfails
    obtain ⟨left, hleft⟩ := Decoder.failsWith_iff.mp hfails
    rw [AttributeHeader.interpret, hleft, ← hheader]
    rfl
  rw [Decoder.FailsWith, hdecode]
  refine failsWith_decodeDelimited_iff.mpr (.inr ⟨?_, hlines, ?_⟩)
  · rw [hwidth, Cursor.remaining, List.length_append]
    exact Nat.le_add_right _ _
  · rwa [hwidth, List.take_left]

end Record

/-! ### Heights of what is read -/

theorem Attribute.elementValuesOfEach_eq (values : List Attribute) :
    elementValuesOfEach values = values.flatMap elementValues := by
  induction values with
  | nil => rfl
  | cons value values ih => rw [elementValuesOfEach, ih, List.flatMap_cons]

/-- The annotations in a table of bytes hold no element values above the limit. -/
theorem AnnotationEntry.height_le_of_table {bytes : List UInt8} {entries : List AnnotationEntry}
    (h : Table16 AnnotationBytes bytes entries) :
    ∀ entry ∈ entries, ∀ pair ∈ entry.elements, pair.value.height ≤ maxElementLevels := by
  intro entry hentry pair hpair
  obtain ⟨-, -, heach⟩ := (hasOneSpelling.table16 _ _).mp h
  exact ((heach entry hentry).2 pair hpair).2

/-- A payload of a known kind holds no element values above the limit. -/
theorem PayloadBytes.height_le {kind : AttributeKind} {payload : List UInt8} {value : Attribute}
    (h : PayloadBytes kind payload value) :
    ∀ element ∈ value.elementValues, element.height ≤ maxElementLevels := by
  cases h with
  | annotations table =>
    simp only [Attribute.elementValues, List.forall_mem_flatMap, List.forall_mem_map]
    exact AnnotationEntry.height_le_of_table table
  | parameterAnnotations table =>
    simp only [Attribute.elementValues, List.forall_mem_flatMap, List.forall_mem_map]
    intro entries hentries
    obtain ⟨count, length_eq, rows⟩ := table
    obtain ⟨part, hpart⟩ := rows.exists_of_mem entries hentries
    exact AnnotationEntry.height_le_of_table hpart
  | typeAnnotations table =>
    simp only [Attribute.elementValues, List.forall_mem_flatMap, List.forall_mem_map]
    intro typed htyped pair hpair
    obtain ⟨-, -, heach⟩ := (TypeAnnotationEntry.hasOneSpelling.table16 _ _).mp table
    exact ((heach typed htyped).entry.2 pair hpair).2
  | annotationDefault behind =>
    rw [Attribute.elementValues, List.forall_mem_singleton]
    obtain ⟨-, -, hheight⟩ := (ElementValue.hasOneSpelling maxElementLevels _ _).mp behind
    exact hheight
  | _ => simp [Attribute.elementValues]

/-- A record holds no element values above the limit if a body holds none. -/
theorem RecordBytes.height_le {pool : ConstantPool} {body : List UInt8 → Code → Prop}
    (hbody : ∀ payload code, body payload code →
      ∀ element ∈ code.elementValues, element.height ≤ maxElementLevels)
    {bytes : List UInt8} {value : Attribute} (h : RecordBytes pool body bytes value) :
    ∀ element ∈ value.elementValues, element.height ≤ maxElementLevels := by
  obtain ⟨resolved, length_eq, behind⟩ := h
  cases behind with
  | code behind =>
    rw [Attribute.elementValues]
    exact hbody _ _ behind
  | known behind => exact behind.height_le
  | keptLines unreadable => simp [Attribute.elementValues]
  | unknown name_ne no_kind => simp [Attribute.elementValues]

/-- A body holds no element values above the limit. -/
theorem BodyBytes.height_le {pool : ConstantPool} {bytes : List UInt8} {body : Code}
    (h : BodyBytes pool bytes body) :
    ∀ element ∈ body.elementValues, element.height ≤ maxElementLevels := by
  obtain ⟨length_eq, handlersTable, attributesTable⟩ := h
  rw [Code.elementValues, Attribute.elementValuesOfEach_eq, List.forall_mem_flatMap]
  intro value hvalue
  obtain ⟨part, hpart⟩ := attributesTable.exists_of_mem value hvalue
  exact hpart.height_le fun _ _ hnone ↦ hnone.elim

/-- No attribute that is read, from whatever bytes, holds element values above the limit. -/
theorem Attribute.height_le_of_decode {pool : ConstantPool} {level : RecordLevel}
    {site left : Cursor} {value : Attribute} (h : level.decode pool site = (.ok value, left)) :
    ∀ element ∈ value.elementValues, element.height ≤ maxElementLevels := by
  cases level with
  | outer =>
    obtain ⟨bytes, hbytes, -⟩ := (reads_decode pool _ _ _).mp h
    exact hbytes.height_le fun _ _ ↦ BodyBytes.height_le
  | inBody =>
    obtain ⟨bytes, hbytes, -⟩ := (reads_decodeRecord_none pool _ _ _).mp h
    exact hbytes.height_le fun _ _ hnone ↦ hnone.elim

/-! ### The limit -/

/-- The limit on nested element values is exact. An element value whose counts and tags can be
written is read from its bytes, whatever follows, exactly if it is at most 256 high, and a higher
one is refused where the first value starts that 256 others enclose. The same holds of the payloads
that are made of annotations, parameter annotations, annotations on types or a default, and of the
records of these. No attribute that is read from any bytes holds a higher value, and 257 rounds are
enough to read any element value, whose depth is counted up by machine arithmetic. -/
theorem nesting_limit_is_exact :
    (∀ value : ElementValue, value.IsEncodable →
      LimitsNesting (ElementValue.decode maxElementLevels) .tooDeep value.encode
        (value.places · 0) [value] value) ∧
    (∀ (value : Attribute) (kind : AttributeKind) (spelling : Spelling), value.IsAnnotating →
      value.name = kind.name →
      LimitsNesting kind.decode .tooDeep (value.payload spelling) (value.places ·)
        value.elementValues value) ∧
    (∀ (value : Attribute) (pool : ConstantPool) (level : RecordLevel) (spelling : Spelling),
      value.IsAnnotating → pool.utf8? spelling.nameIndex = .ok value.name →
      (value.payload spelling).length < UInt32.size →
      LimitsNesting (level.decode pool) (fun offset ↦ .record (.tooDeep value.name offset 256))
        (value.encode spelling) (fun start ↦ value.places (start + 6)) value.elementValues value) ∧
    (∀ (value : Attribute) (pool : ConstantPool) (level : RecordLevel) (site left : Cursor),
      level.decode pool site = (.ok value, left) →
      ∀ element ∈ value.elementValues, element.height ≤ 256) ∧
    ∀ reader : Reader, reader.IsValid →
      (ElementValue.checked (256 + 1) 0).run? reader =
        some (ElementValue.decode maxElementLevels reader.cursor).1 := by
  refine ⟨?values, ?payloads, ?records, ?heights, ?rounds⟩
  case values => exact fun value ↦ ElementValue.limitsNesting
  case payloads => exact fun value kind spelling h hname ↦ h.limitsNesting hname spelling
  case records =>
    intro value pool level spelling h hname hlength
    exact .of_cases (h.decode_eq hname hlength) (h.exists_failsWith hname hlength)
  case heights => exact fun value pool level site left ↦ Attribute.height_le_of_decode
  case rounds => exact fun reader ↦ ElementValue.agrees_checkedOutermost.run?_eq

/-- Annotations with an array each, so many of both around an empty array. -/
def ElementValue.tower : Nat → ElementValue
  | 0 => .array []
  | count + 1 => .nested ⟨0, [⟨0, .array [ElementValue.tower count]⟩]⟩

theorem ElementValue.isEncodable_tower (count : Nat) : (tower count).IsEncodable := by
  induction count with
  | zero => exact .array (by decide) (by simp)
  | succ count ih =>
    have harray : (array [tower count]).IsEncodable :=
      .array (show 1 < UInt16.size by decide) (by simpa using ih)
    exact .nested (show 1 < UInt16.size by decide) (by simpa using harray)

theorem ElementValue.height_tower (count : Nat) : (tower count).height = 2 * count + 1 := by
  induction count with
  | zero => rfl
  | succ count ih =>
    simp only [tower, height, AnnotationEntry.innerHeight, ElementPair.innerHeight, innerHeight, ih,
      Nat.max_zero]
    omega

theorem ElementValue.length_encode_tower (count : Nat) :
    (tower count).encode.length = 10 * count + 3 := by
  induction count with
  | zero => rfl
  | succ count ih =>
    rw [tower, encode, AnnotationEntry.encode_eq]
    simp [ElementPair.encode_eq, encode_array, encodeTable16, ih]
    omega

/-- The innermost array of a tower is in two values for each annotation, ten bytes further on. -/
theorem ElementValue.find?_places_tower (count start depth : Nat) :
    ((tower count).places start depth).find? (·.enclosing = depth + 2 * count) =
      some ⟨start + 10 * count, depth + 2 * count⟩ := by
  induction count generalizing start depth with
  | zero => simp [tower, places]
  | succ count ih =>
    have hinner := ih (start + 10) (depth + 2)
    rw [show depth + 2 + 2 * count = depth + 2 * (count + 1) by omega,
      show start + 10 + 10 * count = start + 10 * (count + 1) by omega] at hinner
    simp only [tower, places, AnnotationEntry.places, ElementPair.placesOfEach, placesOfEach,
      List.append_nil, Nat.add_assoc, Nat.reduceAdd] at hinner ⊢
    rw [List.find?_cons_of_neg (by simp), List.find?_cons_of_neg (by simp; omega)]
    exact hinner

/-- A value of 256 levels is read. One of 257 is refused where its innermost array starts, by
itself, as a payload and in a record. A record that is read holds a lower one, and an empty array is
read in 257 rounds. -/
theorem nesting_limit_is_exact_tower :
    ElementValue.decode maxElementLevels ⟨(ElementValue.array [.tower 127]).encode ++ [9], 7⟩ =
      (.ok (.array [.tower 127]), ⟨[9], 7 + (ElementValue.array [.tower 127]).encode.length⟩) ∧
    (ElementValue.decode maxElementLevels).FailsWith ⟨(ElementValue.tower 128).encode ++ [9], 7⟩
      (.tooDeep 1287) ∧
    AttributeKind.annotationDefault.decode.FailsWith
      ⟨(Attribute.annotationDefault (.tower 128)).payload default ++ [9], 7⟩ (.tooDeep 1287) ∧
    (RecordLevel.outer.decode (.ofConstants 2 [.utf8 "AnnotationDefault"])).FailsWith
      ⟨(Attribute.annotationDefault (.tower 128)).encode ⟨⟨1, [], fun _ ↦ false⟩, default⟩ ++
        [9], 1⟩ (.record (.tooDeep "AnnotationDefault" 1287 256)) ∧
    (ElementValue.array [.const 0x49 5, .classRef 6]).height ≤ 256 ∧
    (ElementValue.checked (256 + 1) 0).run? (.ofBytes [0x5B, 0, 0]) =
      some (ElementValue.decode maxElementLevels (.ofBytes [0x5B, 0, 0])).1 := by
  obtain ⟨hvalues, hpayloads, hrecords, hheights, hrounds⟩ := nesting_limit_is_exact
  have htower := ElementValue.isEncodable_tower
  have hdeep : ∃ element ∈ [ElementValue.tower 128], 256 < element.height :=
    ⟨_, List.mem_singleton_self _, by rw [ElementValue.height_tower]; decide⟩
  have hfind : ((ElementValue.tower 128).places 7 0).find? (·.enclosing = 256) = some ⟨1287, 256⟩ :=
    ElementValue.find?_places_tower 128 7 0
  refine ⟨?read, ?refused, ?payload, ?record, ?lower, ?rounds⟩
  case read =>
    have harray : (ElementValue.array [.tower 127]).IsEncodable :=
      .array (show 1 < UInt16.size by decide) (by simpa using htower 127)
    refine ((hvalues _ harray).reads_iff 7 [9]).mpr (List.forall_mem_singleton.mpr ?_)
    simp [ElementValue.height, ElementValue.innerHeight, ElementValue.height_tower]
  case refused => exact (hvalues _ (htower 128)).failsWith_of_find? hdeep hfind [9]
  case payload =>
    exact (hpayloads (.annotationDefault (.tower 128)) .annotationDefault default (htower 128)
      rfl).failsWith_of_find? hdeep hfind [9]
  case record =>
    have hlength : (ElementValue.tower 128).encode.length < UInt32.size := by
      rw [ElementValue.length_encode_tower]
      decide
    have hrecord := hrecords (.annotationDefault (.tower 128))
      (.ofConstants 2 [.utf8 "AnnotationDefault"]) .outer ⟨⟨1, [], fun _ ↦ false⟩, default⟩
      (htower 128) rfl hlength
    exact hrecord.failsWith_of_find? hdeep hfind [9]
  case lower =>
    exact hheights (.annotationDefault (.array [.const 0x49 5, .classRef 6]))
      (.ofConstants 2 [.utf8 "AnnotationDefault"]) .inBody
      ⟨encodeRecord 1 [0x5B, 0, 2, 0x49, 0, 5, 0x63, 0, 6] ++ [9], 40⟩ ⟨[9], 55⟩ rfl _
      (List.mem_singleton_self _)
  case rounds => exact hrounds _ (Reader.isValid_ofBytes (by decide))

end MonitorAudit
