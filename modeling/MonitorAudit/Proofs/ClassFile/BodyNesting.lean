import MonitorAudit.Proofs.ClassFile.DeclaredLength
import MonitorAudit.Proofs.ClassFile.Wants

/-!
# Bodies nest one deep

The record of a body of code holds records of its own, so that reading a record may mean reading
records again. What ends this is the name of the record around: it goes along as the `parent?` of
the records inside, and a body that has a parent is refused. `decodeRecordWithin` is that recursion,
with a limit to the number of records around each other that it goes into; a need to go further is
a fault of its own (`Bounded.exceeded`), which nothing on the way turns into another. Two levels are
as good as any number (`decodeRecordWithin_outside`).

A body inside a body is refused as soon as its front is read, and the fault reaches the reader of
the class as it is (`BodyAt.decode_eq_of_record`, `ClassFile.ReachesRecord.exists_parse_eq_error`).
What is parsed has therefore no body inside a body, and a traversal goes into each body once
(`Visitor.walkAttributes_eq_walkTable`). `bodies_nest_one_deep` puts this together.
-/

set_option autoImplicit false

namespace MonitorAudit

open Decoder (failsWith_bind_iff failsWith_mapFault_iff)

/-! ### Faults of a limited recursion -/

/-- A fault of a reader that goes so many levels deep, or that a further level is called for. -/
inductive Bounded (ε : Type) where
  | exceeded
  | fault (fault : ε)
  deriving DecidableEq, Repr

namespace Bounded

variable {ε φ : Type}

/-- The same with the fault reworded. -/
def map (f : ε → φ) : Bounded ε → Bounded φ
  | exceeded => .exceeded
  | fault found => .fault (f found)

end Bounded

instance {ε : Type} [OfEndOfData ε] : OfEndOfData (Bounded ε) where
  ofEndOfData failure := .fault (ofEndOfData failure)

namespace Decoder

variable {ε φ ψ α β : Type}

theorem mapFault_bind (f : ε → φ) (first : Decoder ε α) (next : α → Decoder ε β) :
    (first >>= next).mapFault f = first.mapFault f >>= fun value ↦ (next value).mapFault f := by
  funext cursor
  simp only [mapFault, bind_apply]
  cases first cursor with
  | mk result moved => cases result <;> rfl

theorem mapFault_map (f : ε → φ) (g : α → β) (decoder : Decoder ε α) :
    (g <$> decoder).mapFault f = g <$> decoder.mapFault f :=
  mapFault_bind f decoder _

theorem mapFault_mapFault (f : ε → φ) (g : φ → ψ) (decoder : Decoder ε α) :
    (decoder.mapFault f).mapFault g = decoder.mapFault fun fault ↦ g (f fault) := by
  funext cursor
  simp only [mapFault]
  cases decoder cursor with
  | mk result moved => cases result <;> rfl

theorem mapFault_times (f : ε → φ) (row : Decoder ε α) (count : Nat) :
    (times count row).mapFault f = times count (row.mapFault f) := by
  induction count with
  | zero => rfl
  | succ count ih =>
    rw [times_succ, times_succ, mapFault_bind]
    refine congrArg _ (funext fun value ↦ ?_)
    rw [mapFault_bind, ih]
    rfl

section Words

variable [OfEndOfData ε]

/-- Bytes that are missing are so whether or not there is a limit. -/
theorem mapFault_fault_take (count : Nat) :
    (take count : Decoder ε (List UInt8)).mapFault Bounded.fault = take count := by
  funext cursor
  simp only [mapFault, take]
  cases cursor.splitAt? count with
  | error failure => rfl
  | ok split => rfl

theorem mapFault_fault_u16 : (u16 : Decoder ε UInt16).mapFault Bounded.fault = u16 := by
  rw [u16, mapFault_bind, mapFault_fault_take]
  rfl

theorem mapFault_fault_window (count : Nat) :
    (window count : Decoder ε Cursor).mapFault Bounded.fault = window count := by
  rw [window, mapFault_bind]
  refine congrArg _ (funext fun start ↦ ?_)
  rw [mapFault_bind, mapFault_fault_take]
  rfl

theorem mapFault_fault_counted16 (row : Decoder ε α) :
    (counted16 row).mapFault Bounded.fault = counted16 (row.mapFault Bounded.fault) := by
  rw [counted16, mapFault_bind, mapFault_fault_u16]
  refine congrArg _ (funext fun count ↦ ?_)
  rw [mapFault_times]

end Words

end Decoder

/-! ### The recursion with its parent -/

/-- Reads the body of a method, and each of its attributes by the decoder given. -/
def Code.decodeWith (record : Decoder (Bounded ClassFault) Attribute) :
    Decoder (Bounded PayloadFault) Code := do
  let front ← Code.decodeFront.mapFault .fault
  let attributes ← (Decoder.counted16 record).mapFault (Bounded.map PayloadFault.ofClassFault)
  return { front with attributes }

/-- The attribute of a payload whose structure may call for a further level. -/
def AttributeHeader.interpretWithin (header : AttributeHeader)
    (layout : Decoder (Bounded PayloadFault) Attribute) (payload : Cursor) :
    Except (Bounded ClassFault) Attribute :=
  match layout payload with
  | (.error fault, _) => .error (fault.map header.fault)
  | (.ok value, left) =>
    if left.isEmpty then .ok value
    else .error (.fault (.record (.sizeMismatch header.name header.offset header.length
      (left.position - payload.position))))

/-- Reads the payload of a record by such a structure. A line table is kept as bytes for no other
reason than that it has a fault. -/
def decodeDelimitedWithin (header : AttributeHeader)
    (layout : Decoder (Bounded PayloadFault) Attribute) :
    Decoder (Bounded ClassFault) Attribute := do
  let payload ← Decoder.window header.length.toNat
  match header.interpretWithin layout payload with
  | .ok value => return value
  | .error .exceeded => Decoder.fail .exceeded
  | .error (.fault fault) =>
    if header.name = AttributeKind.lineNumberTable.name then
      return .unknown header.name payload.rest
    else Decoder.fail (.fault fault)

/-- The structure of a payload that is no body. -/
def AttributeHeader.layout (header : AttributeHeader) : Decoder PayloadFault Attribute :=
  match AttributeKind.ofName? header.name with
  | some kind => kind.decode
  | none => .unknown header.name <$> Decoder.takeRest

/-- Reads a record, with so many levels to go into, inside the parent if there is one. The records
of a body are read in the same way, a level further in and with the body for their parent. -/
def decodeRecordWithin (pool : ConstantPool) :
    Nat → Option String → Decoder (Bounded ClassFault) Attribute
  | 0, _ => Decoder.fail .exceeded
  | levels + 1, parent? => do
    let header ← (AttributeHeader.decode pool).mapFault .fault
    if header.name = Code.attributeName then
      match parent? with
      | some parent =>
        Decoder.fail (.fault (.record (.misplaced header.name header.offset parent)))
      | none =>
        decodeDelimitedWithin header
          (.code <$> Code.decodeWith (decodeRecordWithin pool levels (some Code.attributeName)))
    else decodeDelimitedWithin header (header.layout.mapFault .fault)

section Levels

variable {pool : ConstantPool}

theorem AttributeHeader.interpretWithin_mapFault (header : AttributeHeader)
    (layout : Decoder PayloadFault Attribute) (payload : Cursor) :
    header.interpretWithin (layout.mapFault .fault) payload =
      (header.interpret layout payload).mapError .fault := by
  unfold interpretWithin interpret Decoder.mapFault
  cases layout payload with
  | mk result left =>
    cases result with
    | error fault => rfl
    | ok value =>
      simp only
      split <;> rfl

/-- A structure that calls for no further level is read as ever. -/
theorem decodeDelimitedWithin_mapFault (header : AttributeHeader)
    (layout : Decoder PayloadFault Attribute) :
    decodeDelimitedWithin header (layout.mapFault .fault) =
      (decodeDelimited header layout).mapFault .fault := by
  rw [decodeDelimitedWithin, decodeDelimited, Decoder.mapFault_bind, Decoder.mapFault_fault_window]
  refine congrArg _ (funext fun payload ↦ ?_)
  rw [header.interpretWithin_mapFault]
  cases header.interpret layout payload with
  | ok value => rfl
  | error fault =>
    simp only [Except.mapError]
    split <;> rfl

theorem Code.decodeWith_mapFault :
    Code.decodeWith ((decodeRecord pool none).mapFault .fault) =
      (Code.decode pool).mapFault .fault := by
  rw [Code.decodeWith, Code.decode_eq, Decoder.mapFault_bind]
  refine congrArg _ (funext fun front ↦ ?_)
  rw [Decoder.mapFault_bind, ← Decoder.mapFault_fault_counted16, Code.decodeAttributes,
    Decoder.mapFault_mapFault, Decoder.mapFault_mapFault]
  rfl

/-- A record that is no body is read by the structure of its name. -/
theorem decodeRecord_eq (pool : ConstantPool) (body? : Option (Decoder PayloadFault Code)) :
    decodeRecord pool body? = (do
      let header ← AttributeHeader.decode pool
      if header.name = Code.attributeName then
        match body? with
        | none => Decoder.fail (.record (.misplaced header.name header.offset Code.attributeName))
        | some body => decodeDelimited header (.code <$> body)
      else decodeDelimited header header.layout) := by
  rw [decodeRecord]
  refine congrArg _ (funext fun header ↦ if_congr Iff.rfl rfl ?_)
  rw [AttributeHeader.layout]
  cases AttributeKind.ofName? header.name with
  | none | some kind => rfl

/-- The records of a body are read in one level: none of them is gone into. -/
theorem decodeRecordWithin_inBody (pool : ConstantPool) (levels : Nat) :
    decodeRecordWithin pool (levels + 1) (some Code.attributeName) =
      (decodeRecord pool none).mapFault .fault := by
  rw [decodeRecordWithin, decodeRecord_eq, Decoder.mapFault_bind]
  refine congrArg _ (funext fun header ↦ ?_)
  split
  · -- A body is refused here, so that no level below is called for.
    rfl
  · exact decodeDelimitedWithin_mapFault header header.layout

/-- Other records are read in two. -/
theorem decodeRecordWithin_outside (pool : ConstantPool) (levels : Nat) :
    decodeRecordWithin pool (levels + 2) none = (Attribute.decode pool).mapFault .fault := by
  rw [decodeRecordWithin, decodeRecordWithin_inBody, Code.decodeWith_mapFault, Attribute.decode,
    decodeRecord_eq pool (some (Code.decode pool)), Decoder.mapFault_bind]
  refine congrArg _ (funext fun header ↦ ?_)
  split
  · rw [← Decoder.mapFault_map]
    exact decodeDelimitedWithin_mapFault header _
  · exact decodeDelimitedWithin_mapFault header header.layout

end Levels

/-! ### A fault inside a body -/

section Refusal

variable {pool : ConstantPool} {site table row : Cursor} {header : AttributeHeader}
  {rest : List UInt8}

/-- A body inside a body is refused behind its front, whatever its length and its payload. -/
theorem FrontAt.decode_eq_misplaced (front : FrontAt pool site header rest)
    (named : header.name = Code.attributeName) :
    decodeRecord pool none site =
      (.error (.record (.misplaced Code.attributeName site.position Code.attributeName)),
        ⟨rest, site.position + 6⟩) := by
  have hoffset : header.offset = site.position := by
    obtain ⟨-, -⟩ := front
    rfl
  rw [decodeRecord, Decoder.bind_apply, frontAt_iff.mp front]
  simp only [hoffset, named]
  rfl

/-- A fault that a record inside a body gives a name is that of the record around it. -/
theorem BodyAt.decode_eq_of_record {fault : AttributeFault} (body : BodyAt pool site header table)
    (reached : (decodeRecord pool none).ReachesRow table row)
    (failure : (decodeRecord pool none).FailsWith row (.record fault)) :
    Attribute.decode pool site =
      (.error (.record fault), site.advance (6 + header.length.toNat)) := by
  obtain ⟨delimited, named, hbody⟩ := body
  cases delimited with
  | @intro rest front there =>
    have hcode := Code.failsWith_record_iff.mpr ⟨_, table, row, hbody, reached, failure⟩
    obtain ⟨left, hleft⟩ := Decoder.failsWith_iff.mp hcode
    have hrefused : header.interpret (.code <$> Code.decode pool)
        ⟨rest.take header.length.toNat, site.position + 6⟩ = .error (.record fault) := by
      rw [AttributeHeader.interpret, Decoder.map_apply, hleft]
      rfl
    show RecordLevel.outer.decode pool site = _
    rw [front.decode_eq (.body named), decodeDelimited, Decoder.bind_apply,
      AttributeHeader.window_eq there]
    simp only [hrefused, if_neg (Code.ne_lineNumberTable named)]
    rw [← Cursor.advance_advance, ← front.behind_eq]
    rfl

end Refusal

/-! ### A fault inside a class -/

/-- A member whose descriptor is there fails in its attributes. -/
theorem Member.AttributesAt.exists_failsWith {pool : ConstantPool} {site table : Cursor}
    {fault : ClassFault} (h : AttributesAt pool site table)
    (failure : (Attribute.decodeTable pool).FailsWith table fault) :
    ∃ head, decodeHead pool site = (.ok head, table) ∧
      (decodeBody pool head).FailsWith table fault := by
  obtain ⟨head, descriptor, hhead, hdescriptor⟩ := h
  refine ⟨head, hhead, ?_⟩
  rw [decodeBody_eq hdescriptor]
  exact failsWith_bind_iff.mpr (.inl failure)

namespace ClassFile

variable {unit : String} {bytes : List UInt8} {pool : ConstantPool}

/-- A class whose name is read fails in the attributes of its parts. -/
theorem AttributesAt.exists_failsAt {holder : Holder} {table : Cursor} {fault : ClassFault}
    (h : AttributesAt unit bytes holder pool table)
    (failure : (Attribute.decodeTable pool).FailsWith table fault) :
    ∃ className methodName?, FailsAt unit bytes (some className) methodName? fault := by
  cases h with
  | ofField start field front =>
    obtain ⟨head, hhead, hbody⟩ := front.exists_failsWith failure
    exact ⟨_, _, .field start field (failsWith_bind_iff.mpr (.inr ⟨head, table, hhead, hbody⟩))⟩
  | ofMethod start passed method front =>
    obtain ⟨head, hhead, hbody⟩ := front.exists_failsWith failure
    exact ⟨_, _, .methodBody start passed method hhead hbody⟩
  | ofClass start passed passedToo => exact ⟨_, _, .attributes start passed passedToo failure⟩

/-- A record that hangs off a body stands in the table of a record that holds the body. -/
theorem ReachesRecord.exists_bodyAt {row : Cursor} (h : ReachesRecord unit bytes .body pool row) :
    ∃ holder table site header records, AttributesAt unit bytes holder pool table ∧
      (Attribute.decode pool).ReachesRow table site ∧ BodyAt pool site header records ∧
      (decodeRecord pool none).ReachesRow records row := by
  cases h with
  | outside attributes record => cases attributes
  | @inBody _ _ table site behind payload left inner _ header _ attributes enclosing front named
      delimited code record =>
    obtain ⟨hthere, rfl, -⟩ := Decoder.window_eq_ok_iff.mp delimited
    obtain ⟨hfront, hposition⟩ := frontAt_of_decode front
    rw [hposition] at code
    exact ⟨_, table, site, header, inner, attributes, enclosing,
      ⟨.intro hfront hthere, named, code⟩, record⟩

/-- The reader of a class reports a fault that a record inside a body gives a name. -/
theorem ReachesRecord.exists_parse_eq_error {row : Cursor} {fault : AttributeFault}
    (h : ReachesRecord unit bytes .body pool row)
    (failure : (decodeRecord pool none).FailsWith row (.record fault)) :
    ∃ className methodName?,
      parse unit bytes = .error ⟨unit, some className, methodName?, .record fault⟩ := by
  obtain ⟨holder, table, site, header, records, attributes, enclosing, body, record⟩ :=
    h.exists_bodyAt
  have houter := body.decode_eq_of_record record failure
  have htable : (Attribute.decodeTable pool).FailsWith table (.record fault) :=
    Decoder.failsWith_counted16_iff.mpr (.inr ⟨site, enclosing, congrArg Prod.fst houter⟩)
  obtain ⟨className, methodName?, hfails⟩ := attributes.exists_failsAt htable
  exact ⟨className, methodName?, (parse_eq_error_iff _).mpr ⟨rfl, hfails⟩⟩

end ClassFile

/-! ### Traversals of what is parsed -/

/-- The tables of attributes of a class: those of its fields, those of its methods, and its own. -/
def ClassFile.tables (classFile : ClassFile) : List (List Attribute) :=
  classFile.fields.map (·.attributes) ++
    (classFile.methods.map (·.attributes) ++ [classFile.attributes])

theorem ClassFile.IsFlat.areFlat {classFile : ClassFile} (h : classFile.IsFlat) :
    ∀ attributes ∈ classFile.tables, Attribute.AreFlat attributes := by
  intro attributes hattributes
  rw [tables, List.mem_append, List.mem_append, List.mem_map, List.mem_map,
    List.mem_singleton] at hattributes
  rcases hattributes with ⟨field, hfield, rfl⟩ | ⟨method, hmethod, rfl⟩ | rfl
  · exact h.fields field hfield
  · exact h.methods method hmethod
  · exact h.attributes

namespace Visitor

variable {σ : Type} (visitor : Visitor σ)

/-- Visits attributes, going into none of them. -/
def visitRecords (context : Context) (attributes : List Attribute) : Visit σ Unit :=
  forM attributes fun value ↦ visitor.visit context value.event

/-- Visits attributes, going into the bodies among them and no further. -/
def walkTable (context : Context) (attributes : List Attribute) : Visit σ Unit :=
  forM attributes fun
    | .code body => do
      visitor.walkBody { context with code? := some body } body
      visitor.visitRecords { context with code? := some body } body.attributes
    | value => visitor.visit context value.event

/-- Attributes of which none is a body are not gone into. -/
theorem walkAttributes_eq_visitRecords {attributes : List Attribute}
    (h : Attribute.bodiesOf attributes = []) (context : Context) :
    visitor.walkAttributes context attributes = visitor.visitRecords context attributes := by
  rw [walkAttributes_eq_forM]
  refine forM_congr fun value hvalue ↦ visitor.walkAttribute_of_ne_code ?_ context
  rintro body rfl
  have hbody := (Attribute.mem_bodiesOf attributes body).mpr hvalue
  rw [h] at hbody
  exact List.not_mem_nil hbody

/-- Where no body has a body inside it, a traversal of attributes goes into each body among them,
and no further. -/
theorem walkAttributes_eq_walkTable {attributes : List Attribute} (h : Attribute.AreFlat attributes)
    (context : Context) :
    visitor.walkAttributes context attributes = visitor.walkTable context attributes := by
  rw [walkAttributes_eq_forM]
  refine forM_congr fun value hvalue ↦ ?_
  cases value with
  | code body =>
    rw [walkAttribute, walkCode_eq_bind,
      visitor.walkAttributes_eq_visitRecords (h.bodiesOf_eq_nil hvalue)]
  | _ => rw [walkAttribute]; simp

end Visitor

/-! ### How deep bodies nest -/

/-- A body that is read has no body among its attributes. -/
theorem Attribute.bodiesOf_eq_nil_of_decode {pool : ConstantPool} {site left : Cursor} {body : Code}
    (h : Attribute.decode pool site = (.ok (.code body), left)) :
    Attribute.bodiesOf body.attributes = [] := by
  obtain ⟨bytes, hbytes, -, -⟩ := (Attribute.reads_decode pool _ _ _).mp h
  obtain ⟨payload, hpayload⟩ := hbytes.exists_bodyBytes
  exact hpayload.bodiesOf_eq_nil

/-- Records go into each other two deep, the record of a body and those of its attributes, for any
pool and from any cursor.

With two levels to go into, a record is read as it is without a limit, and inside a body one level
is enough. A record inside a body that has the name of one is refused behind its front, whatever its
length and whatever follows. The record around it, and the reader of the class, fail with the very
same fault. So a body that is read has no body among its attributes, nor has any body of a parsed
class; and a traversal of any table of attributes of such a class goes into each body in the table
once, and into nothing else. -/
theorem bodies_nest_one_deep (pool : ConstantPool) :
    (∀ levels,
      decodeRecordWithin pool (levels + 2) none = (Attribute.decode pool).mapFault .fault ∧
      decodeRecordWithin pool (levels + 1) (some Code.attributeName) =
        (decodeRecord pool none).mapFault .fault) ∧
    (∀ {row : Cursor} {inner : AttributeHeader} {rest : List UInt8}, FrontAt pool row inner rest →
      inner.name = Code.attributeName →
      decodeRecord pool none row =
        (.error (.record (.misplaced Code.attributeName row.position Code.attributeName)),
          ⟨rest, row.position + 6⟩) ∧
      (∀ {site table : Cursor} {outer : AttributeHeader}, BodyAt pool site outer table →
        (decodeRecord pool none).ReachesRow table row →
        Attribute.decode pool site =
          (.error (.record (.misplaced Code.attributeName row.position Code.attributeName)),
            site.advance (6 + outer.length.toNat))) ∧
      ∀ {unit : String} {bytes : List UInt8}, ClassFile.ReachesRecord unit bytes .body pool row →
        ∃ className methodName?, ClassFile.parse unit bytes =
          .error ⟨unit, some className, methodName?,
            .record (.misplaced Code.attributeName row.position Code.attributeName)⟩) ∧
    (∀ {site left : Cursor} {body : Code},
      Attribute.decode pool site = (.ok (.code body), left) →
        Attribute.bodiesOf body.attributes = []) ∧
    ∀ {unit : String} {bytes : List UInt8} {classFile : ClassFile},
      ClassFile.parse unit bytes = .ok classFile →
      (∀ body ∈ classFile.bodies, Attribute.bodiesOf body.attributes = []) ∧
      ∀ {σ : Type} (visitor : Visitor σ) (context : Context), ∀ attributes ∈ classFile.tables,
        visitor.walkAttributes context attributes = visitor.walkTable context attributes := by
  refine ⟨fun levels ↦ ?_, fun front named ↦ ?_, fun h ↦ ?_, fun h ↦ ⟨?_, ?_⟩⟩
  · exact ⟨decodeRecordWithin_outside pool levels, decodeRecordWithin_inBody pool levels⟩
  · have hrow := front.decode_eq_misplaced named
    have hfails := congrArg Prod.fst hrow
    refine ⟨hrow, fun body reached ↦ ?_, fun reached ↦ ?_⟩
    · exact body.decode_eq_of_record reached hfails
    · exact reached.exists_parse_eq_error hfails
  · exact Attribute.bodiesOf_eq_nil_of_decode h
  · intro body hbody
    obtain ⟨payload, hpayload⟩ := ClassFile.exists_bodyBytes_of_parse h body hbody
    exact hpayload.bodiesOf_eq_nil
  · intro σ visitor context attributes hattributes
    have hflat := (ClassFile.isFlat_of_parse h).areFlat attributes hattributes
    exact visitor.walkAttributes_eq_walkTable hflat context

/-- A pool with the names of a body and of an attribute that is not known. -/
def nestingPool : ConstantPool := .ofConstants 3 [.utf8 "Code", .utf8 "A"]

/-- The front of a body that declares four gigabytes. -/
def refusedFront : List UInt8 := [0x00, 0x01, 0xFF, 0xFF, 0xFF, 0xFF]

/-- The front of an attribute that is not known and has no payload. -/
def keptFront : List UInt8 := [0x00, 0x02, 0x00, 0x00, 0x00, 0x00]

/-- The bytes of a body with one attribute, which has the front given and no payload. -/
def nestingBody (front : List UInt8) : List UInt8 :=
  [0x00, 0x01, 0x00, 0x00, 0x00, 0x13, 0x00, 0x00, 0x00, 0x00, 0x00, 0x00, 0x00, 0x01, 0xB1, 0x00,
    0x00, 0x00, 0x01] ++ front

/-- The bytes of a class whose only method has that body. -/
def nestingClass (front : List UInt8) : List UInt8 :=
  [0xCA, 0xFE, 0xBA, 0xBE, 0x00, 0x00, 0x00, 0x34, 0x00, 0x06, 0x01, 0x00, 0x04, 0x43, 0x6F, 0x64,
    0x65, 0x01, 0x00, 0x01, 0x41, 0x07, 0x00, 0x02, 0x01, 0x00, 0x01, 0x6D, 0x01, 0x00, 0x03, 0x28,
    0x29, 0x56, 0x00, 0x21, 0x00, 0x03, 0x00, 0x00, 0x00, 0x00, 0x00, 0x00, 0x00, 0x01, 0x00, 0x00,
    0x00, 0x04, 0x00, 0x05, 0x00, 0x01] ++ (nestingBody front ++ [0x00, 0x00])

theorem reachesRecord_nestingClass : ∃ pool row header rest,
    ClassFile.ReachesRecord "A.class" (nestingClass refusedFront) .body pool row ∧
      FrontAt pool row header rest ∧ header.name = Code.attributeName ∧ row.position = 73 := by
  have hfirst : ClassFile.firstInBody (nestingClass refusedFront) (fun header behind ↦
      header.name == Code.attributeName && behind.position == 79) = true := by
    decide +kernel
  obtain ⟨pool, row, header, behind, hreach, hheader, htest⟩ :=
    ClassFile.exists_reachesRecord_of_firstInBody "A.class" hfirst
  obtain ⟨hname, hend⟩ := Bool.and_eq_true_iff.mp htest
  obtain ⟨hfront, hposition⟩ := frontAt_of_decode hheader
  rw [eq_of_beq hend] at hposition
  exact ⟨pool, row, header, behind.rest, hreach, hfront, eq_of_beq hname, by omega⟩

theorem parse_nestingClass : ∃ classFile attributes,
    ClassFile.parse "A.class" (nestingClass keptFront) = .ok classFile ∧
      attributes ∈ classFile.tables ∧ Attribute.bodiesOf attributes ≠ [] := by
  have hcounts : (ClassFile.parse "A.class" (nestingClass keptFront)).toOption.map
      (fun classFile ↦ classFile.tables.map fun attributes ↦
        (Attribute.bodiesOf attributes).length) = some [1, 0] := by
    decide +kernel
  cases hparse : ClassFile.parse "A.class" (nestingClass keptFront) with
  | error failure => simp [hparse, Except.toOption] at hcounts
  | ok classFile =>
    rw [hparse] at hcounts
    have htables := Option.some.inj hcounts
    obtain ⟨attributes, others, hsplit, hcount, -⟩ := List.map_eq_cons_iff.mp htables
    refine ⟨classFile, attributes, rfl, ?_, fun hnone ↦ ?_⟩
    · rw [hsplit]
      exact List.mem_cons_self
    · rw [hnone] at hcount
      exact absurd hcount (by decide)

/-- A body inside the body is refused where its front is read, although one level is too few for the
body around it. An attribute of another name is kept. -/
theorem bodies_nest_one_deep_nestingClass :
    (decodeRecordWithin nestingPool 1 none).FailsWith ⟨nestingBody refusedFront, 54⟩ .exceeded ∧
    (decodeRecordWithin nestingPool 2 none).FailsWith ⟨nestingBody refusedFront, 54⟩
      (.fault (.record (.misplaced "Code" 73 "Code"))) ∧
    BodyAt nestingPool ⟨nestingBody refusedFront, 54⟩ ⟨54, "Code", 19⟩
      ⟨[0x00, 0x01] ++ refusedFront, 71⟩ ∧
    (decodeRecord nestingPool none).ReachesRow ⟨[0x00, 0x01] ++ refusedFront, 71⟩
      ⟨refusedFront, 73⟩ ∧
    FrontAt nestingPool ⟨refusedFront, 73⟩ ⟨73, "Code", 0xFFFFFFFF⟩ [] ∧
    decodeRecord nestingPool none ⟨refusedFront, 73⟩ =
      (.error (.record (.misplaced "Code" 73 "Code")), ⟨[], 79⟩) ∧
    Attribute.decode nestingPool ⟨nestingBody refusedFront, 54⟩ =
      (.error (.record (.misplaced "Code" 73 "Code")), ⟨[], 79⟩) ∧
    (∃ pool row header rest,
      ClassFile.ReachesRecord "A.class" (nestingClass refusedFront) .body pool row ∧
      FrontAt pool row header rest ∧ header.name = Code.attributeName ∧
      ∃ className methodName?, ClassFile.parse "A.class" (nestingClass refusedFront) =
        .error ⟨"A.class", some className, methodName?, .record (.misplaced "Code" 73 "Code")⟩) ∧
    (∃ body, Attribute.decode nestingPool ⟨nestingBody keptFront, 54⟩ =
        (.ok (.code body), ⟨[], 79⟩) ∧ Attribute.bodiesOf body.attributes = []) ∧
    ∃ classFile attributes, ClassFile.parse "A.class" (nestingClass keptFront) = .ok classFile ∧
      attributes ∈ classFile.tables ∧ Attribute.bodiesOf attributes ≠ [] ∧
      ∀ {σ : Type} (visitor : Visitor σ) (context : Context),
        visitor.walkAttributes context attributes = visitor.walkTable context attributes := by
  obtain ⟨hlevels, hmisplaced, hdecoded, -⟩ := bodies_nest_one_deep nestingPool
  have hbody : BodyAt nestingPool ⟨nestingBody refusedFront, 54⟩ ⟨54, "Code", 19⟩
      ⟨[0x00, 0x01] ++ refusedFront, 71⟩ :=
    .intro (.intro (frontAt_iff.mpr rfl) (by decide)) rfl rfl
  have hreached : (decodeRecord nestingPool none).ReachesRow ⟨[0x00, 0x01] ++ refusedFront, 71⟩
      ⟨refusedFront, 73⟩ :=
    ⟨1, _, 0, [], rfl, by decide, rfl⟩
  have hfront : FrontAt nestingPool ⟨refusedFront, 73⟩ ⟨73, "Code", 0xFFFFFFFF⟩ [] :=
    frontAt_iff.mpr rfl
  obtain ⟨hrow, houter, -⟩ := hmisplaced hfront rfl
  have hrecord := houter hbody hreached
  have hwithin : (decodeRecordWithin nestingPool 2 none).FailsWith ⟨nestingBody refusedFront, 54⟩
      (.fault (.record (.misplaced "Code" 73 "Code"))) := by
    rw [(hlevels 0).1]
    exact failsWith_mapFault_iff.mpr ⟨_, congrArg Prod.fst hrecord, rfl⟩
  have hkept : Attribute.decode nestingPool ⟨nestingBody keptFront, 54⟩ =
      (.ok (.code ⟨0, 0, [0xB1], [], [.unknown "A" []]⟩), ⟨[], 79⟩) := rfl
  refine ⟨rfl, hwithin, hbody, hreached, hfront, hrow, hrecord, ?_, ⟨_, hkept, hdecoded hkept⟩, ?_⟩
  · obtain ⟨pool, row, header, rest, hreach, hinner, hname, hposition⟩ := reachesRecord_nestingClass
    have hparse := ((bodies_nest_one_deep pool).2.1 hinner hname).2.2 hreach
    rw [hposition] at hparse
    exact ⟨pool, row, header, rest, hreach, hinner, hname, hparse⟩
  · obtain ⟨classFile, attributes, hparse, hattributes, hbodies⟩ := parse_nestingClass
    obtain ⟨-, hwalk⟩ := (bodies_nest_one_deep nestingPool).2.2.2 hparse
    exact ⟨classFile, attributes, hparse, hattributes, hbodies,
      fun visitor context ↦ hwalk visitor context attributes hattributes⟩

end MonitorAudit
