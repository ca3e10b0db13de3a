import MonitorAudit.Proofs.ClassFile.ClassLayout

/-!
# Where bodies of code stand

A body is an attribute, and an attribute table may hold any number of them. `Member.bodies` are the
bodies of a method in the order of its table; `ClassFile.strayBodies` are those that hang off a
field or off the class itself, and `ClassFile.bodies` are all of them.

Each body of a parsed class has the bytes of a body (`ClassFile.exists_bodyBytes_of_parse`), and so
none has a body inside it (`ClassFile.isFlat_of_parse`).
-/

set_option autoImplicit false

namespace MonitorAudit

/-- The body that an attribute is, if it is one. -/
def Attribute.body? : Attribute → Option Code
  | .code body => some body
  | _ => none

/-- The bodies among attributes, in their order. -/
def Attribute.bodiesOf (attributes : List Attribute) : List Code :=
  attributes.filterMap Attribute.body?

/-- The bodies of a field or a method. -/
def Member.bodies (member : Member) : List Code := Attribute.bodiesOf member.attributes

/-- The bodies that hang off a field or off the class, and so off no method. -/
def ClassFile.strayBodies (classFile : ClassFile) : List Code :=
  classFile.fields.flatMap Member.bodies ++ Attribute.bodiesOf classFile.attributes

/-- The bodies of a class, wherever they hang. -/
def ClassFile.bodies (classFile : ClassFile) : List Code :=
  classFile.fields.flatMap Member.bodies ++
    (classFile.methods.flatMap Member.bodies ++ Attribute.bodiesOf classFile.attributes)

/-- No body among the attributes has a body inside it. -/
def Attribute.AreFlat (attributes : List Attribute) : Prop :=
  ∀ body ∈ Attribute.bodiesOf attributes, Attribute.bodiesOf body.attributes = []

/-- No body of a class, wherever it hangs, has a body inside it. -/
structure ClassFile.IsFlat (classFile : ClassFile) : Prop where
  fields : ∀ field ∈ classFile.fields, Attribute.AreFlat field.attributes
  methods : ∀ method ∈ classFile.methods, Attribute.AreFlat method.attributes
  attributes : Attribute.AreFlat classFile.attributes

theorem Attribute.body?_eq_some_iff (value : Attribute) (body : Code) :
    value.body? = some body ↔ value = .code body := by
  cases value <;> simp [body?]

/-- A body is among attributes exactly if it is one of them. -/
theorem Attribute.mem_bodiesOf (attributes : List Attribute) (body : Code) :
    body ∈ bodiesOf attributes ↔ .code body ∈ attributes := by
  simp [bodiesOf, body?_eq_some_iff]

theorem Attribute.ne_code_of_body?_eq_none {value : Attribute} (h : value.body? = none)
    (body : Code) : value ≠ .code body := by
  rintro rfl
  simp [body?] at h

@[simp] theorem Attribute.bodiesOf_nil : bodiesOf [] = [] := rfl

@[simp] theorem Attribute.bodiesOf_cons_code (body : Code) (attributes : List Attribute) :
    bodiesOf (.code body :: attributes) = body :: bodiesOf attributes := rfl

theorem Attribute.bodiesOf_cons_of_none {value : Attribute} (h : value.body? = none)
    (attributes : List Attribute) : bodiesOf (value :: attributes) = bodiesOf attributes :=
  List.filterMap_cons_none h

theorem Attribute.AreFlat.bodiesOf_eq_nil {attributes : List Attribute} (h : AreFlat attributes)
    {body : Code} (hbody : .code body ∈ attributes) : bodiesOf body.attributes = [] :=
  h body ((mem_bodiesOf attributes body).mpr hbody)

theorem Attribute.AreFlat.of_cons {value : Attribute} {attributes : List Attribute}
    (h : AreFlat (value :: attributes)) : AreFlat attributes := by
  intro body hbody
  rw [mem_bodiesOf] at hbody
  exact h.bodiesOf_eq_nil (List.mem_cons_of_mem value hbody)

/-! ### Bodies of parsed classes -/

/-- A payload of a known kind is no body. -/
theorem PayloadBytes.ne_code {kind : AttributeKind} {payload : List UInt8} {value : Attribute}
    (h : PayloadBytes kind payload value) (body : Code) : value ≠ .code body := by
  cases h <;> simp

/-- Where no bytes are a body, no record is one. -/
theorem RecordBytes.ne_code {pool : ConstantPool} {bytes : List UInt8} {value : Attribute}
    (h : RecordBytes pool (fun _ _ ↦ False) bytes value) (body : Code) : value ≠ .code body := by
  obtain ⟨resolved, length_eq, behind⟩ := h
  cases behind with
  | code hbody => exact hbody.elim
  | known hpayload => exact hpayload.ne_code body
  | keptLines unreadable => simp
  | unknown name_ne no_kind => simp

/-- The body that a record is has the bytes of a body. -/
theorem AttributeBytes.exists_bodyBytes {pool : ConstantPool} {bytes : List UInt8} {body : Code}
    (h : AttributeBytes pool bytes (.code body)) : ∃ payload, BodyBytes pool payload body := by
  rcases h with ⟨resolved, length_eq, behind⟩
  generalize hvalue : Attribute.code body = value at behind
  cases behind with
  | code hbody =>
    cases hvalue
    exact ⟨_, hbody⟩
  | known hpayload => exact absurd hvalue.symm (hpayload.ne_code body)
  | keptLines unreadable => cases hvalue
  | unknown name_ne no_kind => cases hvalue

/-- A body has no body inside it. -/
theorem BodyBytes.bodiesOf_eq_nil {pool : ConstantPool} {bytes : List UInt8} {body : Code}
    (h : BodyBytes pool bytes body) : Attribute.bodiesOf body.attributes = [] := by
  obtain ⟨length_eq, handlersTable, attributesTable⟩ := h
  rw [List.eq_nil_iff_forall_not_mem]
  intro inner hinner
  rw [Attribute.mem_bodiesOf] at hinner
  obtain ⟨part, hpart⟩ := attributesTable.exists_of_mem _ hinner
  exact hpart.ne_code inner rfl

/-- Each body in a table of accepted records has the bytes of a body. -/
theorem Attribute.exists_bodyBytes_of_table {pool : ConstantPool} {bytes : List UInt8}
    {attributes : List Attribute} (h : Table16 (Attribute.decode pool).Accepts bytes attributes) :
    ∀ body ∈ bodiesOf attributes, ∃ payload, BodyBytes pool payload body := by
  intro body hbody
  rw [mem_bodiesOf] at hbody
  obtain ⟨part, hpart⟩ := h.exists_of_mem _ hbody
  rw [accepts_decode_iff] at hpart
  exact hpart.exists_bodyBytes

theorem MemberBytes.exists_bodyBytes {pool : ConstantPool} {bytes : List UInt8} {member : Member}
    (h : MemberBytes pool bytes member) :
    ∀ body ∈ member.bodies, ∃ payload, BodyBytes pool payload body := by
  obtain ⟨named, described, table⟩ := h
  exact Attribute.exists_bodyBytes_of_table table

/-- Each body of a class file has the bytes of a body. -/
theorem ClassBytes.exists_bodyBytes {unit : String} {bytes : List UInt8} {classFile : ClassFile}
    (h : ClassBytes unit bytes classFile) :
    ∀ body ∈ classFile.bodies, ∃ payload, BodyBytes classFile.pool payload body := by
  obtain ⟨front, parent, interfacesTable, fieldsTable, methodsTable, attributesTable⟩ := h
  intro body hbody
  rw [ClassFile.bodies, List.mem_append, List.mem_append, List.mem_flatMap,
    List.mem_flatMap] at hbody
  rcases hbody with ⟨field, hfield, hbody⟩ | ⟨method, hmethod, hbody⟩ | hbody
  · obtain ⟨part, hpart⟩ := fieldsTable.exists_of_mem field hfield
    exact hpart.exists_bodyBytes body hbody
  · obtain ⟨part, hpart⟩ := methodsTable.exists_of_mem method hmethod
    exact hpart.exists_bodyBytes body hbody
  · exact Attribute.exists_bodyBytes_of_table attributesTable body hbody

theorem ClassFile.exists_bodyBytes_of_parse {unit : String} {bytes : List UInt8}
    {classFile : ClassFile} (h : parse unit bytes = .ok classFile) :
    ∀ body ∈ classFile.bodies, ∃ payload, BodyBytes classFile.pool payload body := by
  obtain ⟨used, tail, -, hused⟩ := exists_classBytes_of_parse h
  exact hused.exists_bodyBytes

theorem ClassFile.mem_bodies_of_field {classFile : ClassFile} {field : Member}
    (hfield : field ∈ classFile.fields) {body : Code} (hbody : body ∈ field.bodies) :
    body ∈ classFile.bodies :=
  List.mem_append_left _ (List.mem_flatMap.mpr ⟨field, hfield, hbody⟩)

theorem ClassFile.mem_bodies_of_method {classFile : ClassFile} {method : Member}
    (hmethod : method ∈ classFile.methods) {body : Code} (hbody : body ∈ method.bodies) :
    body ∈ classFile.bodies :=
  List.mem_append_right _ (List.mem_append_left _ (List.mem_flatMap.mpr ⟨method, hmethod, hbody⟩))

theorem ClassFile.mem_bodies_of_attribute {classFile : ClassFile} {body : Code}
    (hbody : body ∈ Attribute.bodiesOf classFile.attributes) : body ∈ classFile.bodies :=
  List.mem_append_right _ (List.mem_append_right _ hbody)

/-- No body of a parsed class has a body inside it. -/
theorem ClassFile.isFlat_of_parse {unit : String} {bytes : List UInt8} {classFile : ClassFile}
    (h : parse unit bytes = .ok classFile) : classFile.IsFlat := by
  have hempty : ∀ body ∈ classFile.bodies, Attribute.bodiesOf body.attributes = [] := by
    intro body hbody
    obtain ⟨payload, hpayload⟩ := exists_bodyBytes_of_parse h body hbody
    exact hpayload.bodiesOf_eq_nil
  constructor
  · exact fun field hfield body hbody ↦ hempty body (mem_bodies_of_field hfield hbody)
  · exact fun method hmethod body hbody ↦ hempty body (mem_bodies_of_method hmethod hbody)
  · exact fun body hbody ↦ hempty body (mem_bodies_of_attribute hbody)

/-- A parsed class bears the name of its unit. -/
theorem ClassFile.unit_of_parse {unit : String} {bytes : List UInt8} {classFile : ClassFile}
    (h : parse unit bytes = .ok classFile) : classFile.unit = unit := by
  obtain ⟨used, tail, -, hused⟩ := exists_classBytes_of_parse h
  cases hused
  rfl

end MonitorAudit
