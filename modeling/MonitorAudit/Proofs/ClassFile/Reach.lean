import MonitorAudit.Proofs.Bytes.Patch
import MonitorAudit.Proofs.ClassFile.Bodies

/-!
# The records to which the reader of a class comes

`ClassFile.ReachesRecord unit bytes holder pool site` says that the reader of a class, given the
bytes, comes to an attribute record at the cursor `site`. Everything in front of the record is read
by then; whatever is behind it, and the record itself, may still be refused. The record hangs off a
`Holder`: the class, a field, a method, or a body of code that hangs off any of these.

Payloads that nothing is read from (`AttributeHeader.IsUnread`) are line tables, which are kept as
bytes where they are no table, and attributes of no known name. Other bytes in the place of such a
payload give the same outcome of the whole class file (`ClassFile.sameOutcome_decode`), up to what
`ClassFile.Alike` leaves open: the attributes that are not bodies, and the lines of a body if the
payload is a line table inside it.
-/

set_option autoImplicit false

namespace MonitorAudit

open Decoder (LooksNoFurther SameOutcome)

/-! ### The parts of a class file -/

/-- What an attribute hangs off. -/
inductive Holder where
  | classFile
  | field
  | method
  /-- A body of code, wherever the body hangs. -/
  | body
  deriving DecidableEq, Repr

/-- The rows of a table are read up to the row at `site`. -/
def Decoder.ReachesRow {ε α : Type} (row : Decoder ε α) (table site : Cursor) : Prop :=
  ∃ count start place rows, (Decoder.u16 : Decoder ClassFault UInt16) table = (.ok count, start) ∧
    place < count.toNat ∧ Decoder.times place row start = (.ok rows, site)

/-- The rows of a table are read, all of them, up to the cursor behind it. -/
def Decoder.PassesTable {ε α : Type} (row : Decoder ε α) (table behind : Cursor) : Prop :=
  ∃ count start rows, (Decoder.u16 : Decoder ClassFault UInt16) table = (.ok count, start) ∧
    Decoder.times count.toNat row start = (.ok rows, behind)

/-- Reads a body of code up to its attributes. -/
def Code.decodeFront : Decoder PayloadFault Code := do
  let maxStack ← Decoder.u16
  let maxLocals ← Decoder.u16
  let length ← Decoder.u32
  let bytes ← Decoder.take length.toNat
  let handlers ← Decoder.counted16 ExceptionHandler.decode
  return ⟨maxStack, maxLocals, bytes, handlers, []⟩

theorem Code.decode_eq (pool : ConstantPool) :
    decode pool = do
      let front ← decodeFront
      let attributes ← (decodeAttributes pool).mapFault PayloadFault.ofClassFault
      return { front with attributes } := by
  simp only [decode, decodeFront, bind_assoc, pure_bind]

/-- The attributes of a member stand behind three words, of which the second and the third are the
slots of its name and of its descriptor. -/
def Member.AttributesAt (pool : ConstantPool) (site table : Cursor) : Prop :=
  ∃ head descriptor, decodeHead pool site = (.ok head, table) ∧
    pool.utf8? head.descriptorIndex = .ok descriptor

namespace ClassFile

variable (unit : String) (bytes : List UInt8)

/-- The table of the fields is at the cursor, behind the front of the class, its superclass and its
interfaces. -/
inductive FieldsAt : ClassHeader → Cursor → Prop
  | intro {header : ClassHeader} {parent : UInt16 × Option String} {interfaces : List UInt16}
      {first second table : Cursor}
      (front : ClassHeader.decode (.ofBytes bytes) = (.ok header, first))
      (super : decodeSuper header.pool first = (.ok parent, second))
      (indices : (Decoder.counted16 Decoder.u16 : Decoder ClassFault (List UInt16)) second =
        (.ok interfaces, table)) :
      FieldsAt header table

/-- The table of the attributes of a class, a field or a method is at the cursor. -/
inductive AttributesAt : Holder → ConstantPool → Cursor → Prop
  | ofField {header : ClassHeader} {fields site table : Cursor}
      (start : FieldsAt bytes header fields)
      (field : (Member.decodeField unit header.name header.pool).ReachesRow fields site)
      (front : Member.AttributesAt header.pool site table) :
      AttributesAt .field header.pool table
  | ofMethod {header : ClassHeader} {fields methods site table : Cursor}
      (start : FieldsAt bytes header fields)
      (passed : (Member.decodeField unit header.name header.pool).PassesTable fields methods)
      (method : (Member.decodeMethod unit header.name header.pool).ReachesRow methods site)
      (front : Member.AttributesAt header.pool site table) :
      AttributesAt .method header.pool table
  | ofClass {header : ClassHeader} {fields methods table : Cursor}
      (start : FieldsAt bytes header fields)
      (passed : (Member.decodeField unit header.name header.pool).PassesTable fields methods)
      (passedToo : (Member.decodeMethod unit header.name header.pool).PassesTable methods table) :
      AttributesAt .classFile header.pool table

/-- The reader of a class comes to a record at the cursor, among the attributes of the holder. -/
inductive ReachesRecord : Holder → ConstantPool → Cursor → Prop
  | outside {holder : Holder} {pool : ConstantPool} {table site : Cursor}
      (attributes : AttributesAt unit bytes holder pool table)
      (record : (Attribute.decode pool).ReachesRow table site) :
      ReachesRecord holder pool site
  | inBody {holder : Holder} {pool : ConstantPool} {table outer behind payload left inner site :
        Cursor} {header : AttributeHeader} {body : Code}
      (attributes : AttributesAt unit bytes holder pool table)
      (enclosing : (Attribute.decode pool).ReachesRow table outer)
      (front : AttributeHeader.decode pool outer = (.ok header, behind))
      (named : header.name = Code.attributeName)
      (delimited : (Decoder.window header.length.toNat : Decoder ClassFault Cursor) behind =
        (.ok payload, left))
      (code : Code.decodeFront payload = (.ok body, inner))
      (record : (decodeRecord pool none).ReachesRow inner site) :
      ReachesRecord .body pool site

end ClassFile

/-! ### What is left open -/

/-- The lines that an attribute gives, if it is a line table. -/
def Attribute.lines? : Attribute → Option LineNumberTable
  | .lineNumberTable table => some table
  | _ => none

/-- Two bodies have the same code and, if `sites` are to be kept, the same lines. -/
structure Code.Alike (sites : Prop) (body other : Code) : Prop where
  bytes : body.bytes = other.bytes
  lines : sites → body.lineNumberTable? = other.lineNumberTable?

/-- Two members have the same flags and the same name, and bodies that are alike. -/
structure Member.Alike (sites : Prop) (member other : Member) : Prop where
  accessFlags : member.accessFlags = other.accessFlags
  name : member.name = other.name
  bodies : List.Forall₂ (Code.Alike sites) member.bodies other.bodies

/-- Two classes have the same name, and members and bodies that are alike. -/
structure ClassFile.Alike (sites : Prop) (classFile other : ClassFile) : Prop where
  unit : classFile.unit = other.unit
  name : classFile.name = other.name
  fields : List.Forall₂ (Member.Alike sites) classFile.fields other.fields
  methods : List.Forall₂ (Member.Alike sites) classFile.methods other.methods
  bodies : List.Forall₂ (Code.Alike sites) (Attribute.bodiesOf classFile.attributes)
    (Attribute.bodiesOf other.attributes)

/-- Two attributes are no bodies, or bodies that are alike. -/
def Attribute.Alike (sites : Prop) (value other : Attribute) : Prop :=
  Option.Rel (Code.Alike sites) value.body? other.body?

section Alike

variable {sites : Prop}

@[refl] theorem Code.Alike.refl (body : Code) : Code.Alike sites body body := ⟨rfl, fun _ ↦ rfl⟩

@[refl] theorem Attribute.Alike.refl (value : Attribute) : Alike sites value value := by
  unfold Alike
  cases value.body? with
  | none => exact .none
  | some body => exact .some (.refl body)

theorem Attribute.Alike.code {body other : Code} (h : Code.Alike sites body other) :
    Alike sites (.code body) (.code other) :=
  Option.Rel.some h

theorem Attribute.Alike.of_none {value other : Attribute} (hvalue : value.body? = none)
    (hother : other.body? = none) : Alike sites value other := by
  rw [Alike, hvalue, hother]
  exact .none

theorem Attribute.Alike.bodiesOf {attributes others : List Attribute}
    (h : List.Forall₂ (Alike sites) attributes others) :
    List.Forall₂ (Code.Alike sites) (bodiesOf attributes) (bodiesOf others) :=
  List.rel_filterMap (fun _ _ halike ↦ halike) h

@[refl] theorem Member.Alike.refl (member : Member) : Member.Alike sites member member :=
  ⟨rfl, rfl, List.forall₂_same.mpr fun body _ ↦ .refl body⟩

/-- Questions that agree on lists value by value have the same first answer. -/
theorem findSome?_eq_of_forall₂ {α β γ : Type} {f : α → Option γ} {g : β → Option γ}
    {values : List α} {others : List β}
    (h : List.Forall₂ (fun value other ↦ f value = g other) values others) :
    values.findSome? f = others.findSome? g := by
  induction h with
  | nil => rfl
  | cons hhead _ ih => rw [List.findSome?_cons, List.findSome?_cons, hhead, ih]

/-- Bodies with the same code are alike if their attributes give the same lines. -/
theorem Code.Alike.of_attributes (front : Code) {attributes others : List Attribute}
    (h : List.Forall₂ (fun value other ↦ sites → value.lines? = other.lines?) attributes others) :
    Code.Alike sites { front with attributes } { front with attributes := others } := by
  refine ⟨rfl, fun hsites ↦ ?_⟩
  have hlines : List.Forall₂ (fun value other ↦ value.lines? = other.lines?) attributes others :=
    h.imp fun _ _ hlines ↦ hlines hsites
  exact findSome?_eq_of_forall₂ hlines

end Alike

/-! ### Payloads from which nothing is read -/

/-- The payload is a line table or belongs to no known name. -/
def AttributeHeader.IsUnread (header : AttributeHeader) : Prop :=
  header.name = AttributeKind.lineNumberTable.name ∨
    header.name ≠ Code.attributeName ∧ AttributeKind.ofName? header.name = none

section Unread

variable {header : AttributeHeader} {behind : Cursor}

/-- A payload that is there is split off. -/
theorem AttributeHeader.window_eq (hpayload : header.length.toNat ≤ behind.remaining) :
    (Decoder.window header.length.toNat : Decoder ClassFault Cursor) behind =
      (.ok ⟨behind.rest.take header.length.toNat, behind.position⟩,
        behind.advance header.length.toNat) :=
  Decoder.window_eq_ok_iff.mpr ⟨hpayload, rfl, rfl⟩

/-- A line table is never refused, and what is made of it is no body. -/
theorem decodeDelimited_of_lines (hname : header.name = AttributeKind.lineNumberTable.name)
    (hpayload : header.length.toNat ≤ behind.remaining) :
    ∃ value, decodeDelimited header AttributeKind.lineNumberTable.decode behind =
      (.ok value, behind.advance header.length.toNat) ∧ value.body? = none := by
  rw [decodeDelimited, Decoder.bind_apply, AttributeHeader.window_eq hpayload]
  simp only
  cases hvalue : header.interpret AttributeKind.lineNumberTable.decode
      ⟨behind.rest.take header.length.toNat, behind.position⟩ with
  | error fault =>
    simp only [if_pos hname]
    exact ⟨_, rfl, rfl⟩
  | ok value =>
    rw [header.interpret_eq_ok_iff (AttributeKind.reads_decode _).usesUp] at hvalue
    refine ⟨value, rfl, Option.eq_none_iff_forall_ne_some.mpr fun body hbody ↦ ?_⟩
    exact hvalue.ne_code body ((Attribute.body?_eq_some_iff value body).mp hbody)

/-- A payload of no known name is kept as it is. -/
theorem decodeDelimited_of_unknown (hpayload : header.length.toNat ≤ behind.remaining) :
    decodeDelimited header (.unknown header.name <$> Decoder.takeRest) behind =
      (.ok (.unknown header.name (behind.rest.take header.length.toNat)),
        behind.advance header.length.toNat) := by
  rw [decodeDelimited, Decoder.bind_apply, AttributeHeader.window_eq hpayload]
  rfl

/-- A record of an unread payload is never refused, and it is neither a body nor, unless it has the
name of one, a line table. -/
theorem decodeRecord_of_isUnread {pool : ConstantPool} {site : Cursor}
    (body? : Option (Decoder PayloadFault Code)) (hunread : header.IsUnread)
    (hheader : AttributeHeader.decode pool site = (.ok header, behind))
    (hpayload : header.length.toNat ≤ behind.remaining) :
    ∃ value, decodeRecord pool body? site = (.ok value, behind.advance header.length.toNat) ∧
      value.body? = none ∧
      (header.name ≠ AttributeKind.lineNumberTable.name → value.lines? = none) := by
  rw [decodeRecord, Decoder.bind_apply, hheader]
  simp only
  rcases hunread with hlines | ⟨hcode, hkind⟩
  · have hcode : header.name ≠ Code.attributeName := by
      rw [hlines]
      exact AttributeKind.name_ne_code _
    obtain ⟨value, hvalue, hbody⟩ := decodeDelimited_of_lines hlines hpayload
    rw [if_neg hcode, hlines, AttributeKind.ofName?_name]
    exact ⟨value, hvalue, hbody, fun hne ↦ absurd rfl hne⟩
  · rw [if_neg hcode, hkind]
    exact ⟨_, decodeDelimited_of_unknown hpayload, rfl, fun _ ↦ rfl⟩

/-- Other bytes in an unread payload leave the cursor in the same place. -/
theorem sameOutcome_decodeRecord_of_isUnread {pool : ConstantPool} {site : Cursor}
    (body? : Option (Decoder PayloadFault Code)) (hunread : header.IsUnread)
    (hheader : AttributeHeader.decode pool site = (.ok header, behind))
    (hpayload : header.length.toNat ≤ behind.remaining) {bytes : List UInt8}
    (hbytes : bytes.length = header.length.toNat) :
    SameOutcome (fun value other ↦ (value.body? = none ∧ other.body? = none) ∧
        (header.name ≠ AttributeKind.lineNumberTable.name → value.lines? = other.lines?))
      (decodeRecord pool body? site)
      (decodeRecord pool body? (site.patch behind.position bytes)) := by
  have hsame := (AttributeHeader.reads_decode pool).looksNoFurther.patch hheader
    (Nat.le_refl behind.position) bytes
  have hthere : header.length.toNat ≤ (behind.patch behind.position bytes).remaining := by
    rw [Cursor.remaining, Cursor.length_patch behind (Nat.le_refl _) (by omega)]
    exact hpayload
  have hbehind : (behind.patch behind.position bytes).advance header.length.toNat =
      behind.advance header.length.toNat := by
    simp [Cursor.patch, Cursor.advance, ← hbytes]
  obtain ⟨value, hvalue, hbody, hlines⟩ :=
    decodeRecord_of_isUnread body? hunread hheader hpayload
  obtain ⟨other, hother, hbody', hlines'⟩ := decodeRecord_of_isUnread body? hunread hsame hthere
  rw [hvalue, hother, hbehind]
  exact .ok ⟨⟨hbody, hbody'⟩, fun hne ↦ (hlines hne).trans (hlines' hne).symm⟩ _

end Unread

/-! ### Tables with a patch in one row -/

namespace Decoder

variable {ε α : Type} {row : Decoder ε α} {table site behind : Cursor} {offset : Nat}
  {bytes : List UInt8}

theorem ReachesRow.leadsTo (h : row.ReachesRow table site) (hrow : LooksNoFurther row) :
    table.LeadsTo site := by
  obtain ⟨count, start, place, rows, hcount, -, hrows⟩ := h
  exact (Reads.u16.looksNoFurther.leadsTo hcount).trans ((hrow.times place).leadsTo hrows)

theorem PassesTable.leadsTo (h : row.PassesTable table behind) (hrow : LooksNoFurther row) :
    table.LeadsTo behind := by
  obtain ⟨count, start, rows, hcount, hrows⟩ := h
  exact (Reads.u16.looksNoFurther.leadsTo hcount).trans ((hrow.times _).leadsTo hrows)

/-- A patch in one row of a table changes no other row. -/
theorem SameOutcome.counted16 {row : Decoder ClassFault α} {related : α → α → Prop}
    (hrow : LooksNoFurther row) (hrefl : ∀ value, related value value)
    (hreach : row.ReachesRow table site) (hoffset : site.position ≤ offset)
    (hsite : SameOutcome related (row site) (row (site.patch offset bytes))) :
    SameOutcome (List.Forall₂ related) (Decoder.counted16 row table)
      (Decoder.counted16 row (table.patch offset bytes)) := by
  obtain ⟨count, start, place, rows, hcount, hplace, hrows⟩ := hreach
  have hstart := (hrow.times place).position_le hrows
  exact SameOutcome.bind_patch Reads.u16.looksNoFurther hcount (Nat.le_trans hstart hoffset)
    (SameOutcome.times hrow hrefl hplace hrows hoffset hsite)

variable {β : Type} {related : α → α → Prop} {relatedBehind : β → β → Prop}
  {next : List α → Decoder ε β}

/-- What follows a table with a patch in one row is given tables with related rows. -/
theorem SameOutcome.bind_row (f : ClassFault → ε) (hrow : LooksNoFurther row)
    (hrefl : ∀ value, related value value) (hreach : row.ReachesRow table site)
    (hoffset : site.position ≤ offset)
    (hsite : SameOutcome related (row site) (row (site.patch offset bytes)))
    (hnext : ∀ rows others left, List.Forall₂ related rows others →
      SameOutcome relatedBehind (next rows left) (next others left)) :
    SameOutcome relatedBehind
      ((Decoder.u16.mapFault f >>= fun count ↦ Decoder.times count.toNat row >>= next) table)
      ((Decoder.u16.mapFault f >>= fun count ↦ Decoder.times count.toNat row >>= next)
        (table.patch offset bytes)) := by
  obtain ⟨count, start, place, rows, hcount, hplace, hrows⟩ := hreach
  have hstart := (hrow.times place).position_le hrows
  refine .bind_patch (Reads.u16.looksNoFurther.mapFault f) (mapFault_eq_ok_iff.mpr hcount)
    (Nat.le_trans hstart hoffset) ?_
  exact .bind (.times hrow hrefl hplace hrows hoffset hsite) hnext

/-- A table in front of a patch is left behind. -/
theorem SameOutcome.bind_table (f : ClassFault → ε) (hrow : LooksNoFurther row)
    (hpassed : row.PassesTable table behind) (hoffset : behind.position ≤ offset)
    (hnext : ∀ rows, SameOutcome relatedBehind (next rows behind)
      (next rows (behind.patch offset bytes))) :
    SameOutcome relatedBehind
      ((Decoder.u16.mapFault f >>= fun count ↦ Decoder.times count.toNat row >>= next) table)
      ((Decoder.u16.mapFault f >>= fun count ↦ Decoder.times count.toNat row >>= next)
        (table.patch offset bytes)) := by
  obtain ⟨count, start, rows, hcount, hrows⟩ := hpassed
  have hstart := (hrow.times _).position_le hrows
  refine .bind_patch (Reads.u16.looksNoFurther.mapFault f) (mapFault_eq_ok_iff.mpr hcount)
    (Nat.le_trans hstart hoffset) ?_
  exact .bind_patch (hrow.times _) hrows hoffset (hnext rows)

end Decoder

/-! ### Bodies with a patch in one record -/

section Body

variable {sites : Prop} {pool : ConstantPool} {offset : Nat} {bytes : List UInt8}

theorem Attribute.looksNoFurther_decode (pool : ConstantPool) : LooksNoFurther (decode pool) :=
  (reads_decode pool).looksNoFurther

theorem looksNoFurther_decodeRecord_none (pool : ConstantPool) :
    LooksNoFurther (decodeRecord pool none) :=
  (reads_decodeRecord_none pool).looksNoFurther

theorem Code.looksNoFurther_decodeFront : LooksNoFurther decodeFront :=
  .bind Decoder.Reads.u16.looksNoFurther fun _ ↦ .bind Decoder.Reads.u16.looksNoFurther fun _ ↦
    .bind Decoder.Reads.u32.looksNoFurther fun length ↦
      .bind (Decoder.Reads.take length.toNat).looksNoFurther fun _ ↦
        .bind ExceptionHandler.reads_decode.counted16.looksNoFurther fun _ ↦ .pure _

theorem Code.sameOutcome_decode {payload inner site : Cursor} {front : Code}
    (hfront : decodeFront payload = (.ok front, inner))
    (hrecord : (decodeRecord pool none).ReachesRow inner site) (hoffset : site.position ≤ offset)
    (hsite : SameOutcome (fun value other ↦ sites → value.lines? = other.lines?)
      (decodeRecord pool none site) (decodeRecord pool none (site.patch offset bytes))) :
    SameOutcome (Code.Alike sites) (decode pool payload)
      (decode pool (payload.patch offset bytes)) := by
  have hrow := looksNoFurther_decodeRecord_none pool
  have hinner := (hrecord.leadsTo hrow).position_le
  rw [decode_eq]
  refine .bind_patch looksNoFurther_decodeFront hfront (Nat.le_trans hinner hoffset) ?_
  refine .bind (.mapFault (.counted16 hrow (fun _ _ ↦ rfl) hrecord hoffset hsite) _)
    fun attributes others left halike ↦ ?_
  exact .ok (.of_attributes front halike) left

/-- What a structure makes of a payload is related if the structure reads related values. -/
theorem AttributeHeader.interpret_cases {header : AttributeHeader}
    {layout : Decoder PayloadFault Attribute} {payload other : Cursor}
    {related : Attribute → Attribute → Prop} (hposition : payload.position = other.position)
    (h : SameOutcome related (layout payload) (layout other)) :
    (∃ fault, header.interpret layout payload = .error fault ∧
      header.interpret layout other = .error fault) ∨
    ∃ value value', header.interpret layout payload = .ok value ∧
      header.interpret layout other = .ok value' ∧ related value value' := by
  unfold interpret
  rw [hposition]
  generalize layout payload = outcome at h ⊢
  generalize layout other = outcome' at h ⊢
  cases h with
  | error fault left => exact .inl ⟨_, rfl, rfl⟩
  | ok alike left =>
    simp only
    cases left.isEmpty with
    | false => exact .inl ⟨_, rfl, rfl⟩
    | true => exact .inr ⟨_, _, rfl, rfl, alike⟩

/-- A patch in the payload of a body changes what is read from the payload, and nothing behind. -/
theorem sameOutcome_decodeRecord_of_body {outer behind payload left : Cursor}
    {header : AttributeHeader} (hheader : AttributeHeader.decode pool outer = (.ok header, behind))
    (hname : header.name = Code.attributeName)
    (hpayload : (Decoder.window header.length.toNat : Decoder ClassFault Cursor) behind =
      (.ok payload, left))
    (hoffset : payload.position ≤ offset) (hbytes : offset + bytes.length ≤ payload.stop)
    (hbody : SameOutcome (Code.Alike sites) (Code.decode pool payload)
      (Code.decode pool (payload.patch offset bytes))) :
    SameOutcome (Attribute.Alike sites) (Attribute.decode pool outer)
      (Attribute.decode pool (outer.patch offset bytes)) := by
  have hbehind : behind.position ≤ offset := by
    obtain ⟨-, rfl, -⟩ := Decoder.window_eq_ok_iff.mp hpayload
    exact hoffset
  have hlayout : SameOutcome (Attribute.Alike sites)
      ((Attribute.code <$> Code.decode pool) payload)
      ((Attribute.code <$> Code.decode pool) (payload.patch offset bytes)) :=
    .bind hbody fun body other left halike ↦ .ok (.code halike) left
  have hposition : payload.position = (payload.patch offset bytes).position := rfl
  refine .bind_patch (AttributeHeader.reads_decode pool).looksNoFurther hheader hbehind ?_
  simp only [if_pos hname]
  have hpatched := Decoder.window_patch hpayload hoffset hbytes
  rw [decodeDelimited, Decoder.bind_apply, Decoder.bind_apply, hpayload, hpatched]
  rcases header.interpret_cases hposition hlayout with ⟨fault, hfault, hfault'⟩ |
    ⟨value, other, hvalue, hother, halike⟩
  · have hlines : header.name ≠ AttributeKind.lineNumberTable.name := by
      rw [hname]
      exact (AttributeKind.name_ne_code _).symm
    simp only [hfault, hfault', if_neg hlines]
    exact .error fault left
  · simp only [hvalue, hother]
    exact .ok halike left

end Body

/-! ### Class files with a patch in one record -/

section Class

variable {sites : Prop} {offset : Nat} {bytes : List UInt8}

theorem Member.AttributesAt.leadsTo {pool : ConstantPool} {site table : Cursor}
    (h : AttributesAt pool site table) : site.LeadsTo table := by
  obtain ⟨head, descriptor, hhead, -⟩ := h
  exact (reads_decodeHead pool).looksNoFurther.leadsTo hhead

/-- Behind a descriptor that is there only the attributes of a member are left to be read. -/
theorem Member.decodeBody_eq {pool : ConstantPool} {head : Head} {descriptor : String}
    (h : pool.utf8? head.descriptorIndex = .ok descriptor) :
    decodeBody pool head = (do
      let attributes ← Attribute.decodeTable pool
      return ⟨head.accessFlags, head.nameIndex, head.descriptorIndex, head.name, descriptor,
        attributes⟩) := by
  have hfound : Decoder.ofPool (.ok descriptor) = pure descriptor := rfl
  rw [decodeBody, h, hfound, pure_bind]

/-- A patch among the attributes of a member changes nothing else about it. -/
theorem Member.sameOutcome_decodeBody {pool : ConstantPool} {head : Head} {descriptor : String}
    {table : Cursor} (hdescriptor : pool.utf8? head.descriptorIndex = .ok descriptor)
    (htable : SameOutcome (List.Forall₂ (Attribute.Alike sites)) (Attribute.decodeTable pool table)
      (Attribute.decodeTable pool (table.patch offset bytes))) :
    SameOutcome (Member.Alike sites) (decodeBody pool head table)
      (decodeBody pool head (table.patch offset bytes)) := by
  rw [decodeBody_eq hdescriptor]
  refine .bind htable fun attributes others left halike ↦ ?_
  exact .ok ⟨rfl, rfl, Attribute.Alike.bodiesOf halike⟩ left

theorem Member.sameOutcome_decodeField (unit className : String) {pool : ConstantPool}
    {site table : Cursor} (hfront : AttributesAt pool site table)
    (hoffset : table.position ≤ offset)
    (htable : SameOutcome (List.Forall₂ (Attribute.Alike sites)) (Attribute.decodeTable pool table)
      (Attribute.decodeTable pool (table.patch offset bytes))) :
    SameOutcome (Member.Alike sites) (decodeField unit className pool site)
      (decodeField unit className pool (site.patch offset bytes)) := by
  obtain ⟨head, descriptor, hhead, hdescriptor⟩ := hfront
  refine .mapFault (.bind_patch (reads_decodeHead pool).looksNoFurther hhead hoffset ?_) _
  exact sameOutcome_decodeBody hdescriptor htable

theorem Member.sameOutcome_decodeMethod (unit className : String) {pool : ConstantPool}
    {site table : Cursor} (hfront : AttributesAt pool site table)
    (hoffset : table.position ≤ offset)
    (htable : SameOutcome (List.Forall₂ (Attribute.Alike sites)) (Attribute.decodeTable pool table)
      (Attribute.decodeTable pool (table.patch offset bytes))) :
    SameOutcome (Member.Alike sites) (decodeMethod unit className pool site)
      (decodeMethod unit className pool (site.patch offset bytes)) := by
  obtain ⟨head, descriptor, hhead, hdescriptor⟩ := hfront
  refine .bind_patch ((reads_decodeHead pool).looksNoFurther.mapFault _)
    (Decoder.mapFault_eq_ok_iff.mpr hhead) hoffset ?_
  exact .mapFault (sameOutcome_decodeBody hdescriptor htable) _

namespace ClassFile

variable {unit : String} {header : ClassHeader}

/-- Reads the tables of a class, behind its front, its superclass and its interfaces. -/
def decodeTables (unit : String) (header : ClassHeader) (parent : UInt16 × Option String)
    (interfaces : List UInt16) : Decoder ScanFailure ClassFile := do
  let inClass := ScanFailure.mk unit header.name none
  let fieldCount ← Decoder.u16.mapFault inClass
  let fields ← Decoder.times fieldCount.toNat (Member.decodeField unit header.name header.pool)
  let methodCount ← Decoder.u16.mapFault inClass
  let methods ← Decoder.times methodCount.toNat (Member.decodeMethod unit header.name header.pool)
  let attributes ← (Attribute.decodeTable header.pool).mapFault inClass
  return { header with
    unit, superClass := parent.1, superName? := parent.2, interfaces, fields, methods, attributes }

/-- A patch behind the interfaces is met in the tables. -/
theorem FieldsAt.sameOutcome_decode {all : List UInt8} {table : Cursor}
    (h : FieldsAt all header table) (hoffset : table.position ≤ offset)
    (htables : ∀ parent interfaces, SameOutcome (ClassFile.Alike sites)
      (decodeTables unit header parent interfaces table)
      (decodeTables unit header parent interfaces (table.patch offset bytes))) :
    SameOutcome (ClassFile.Alike sites) (decode unit (.ofBytes all))
      (decode unit ((Cursor.ofBytes all).patch offset bytes)) := by
  obtain ⟨front, super, indices⟩ := h
  rename_i parent interfaces first second
  have hheader := ClassHeader.reads_decode.looksNoFurther
  have hsuper := (reads_decodeSuper header.pool).looksNoFurther
  have hindices := reads_interfaces.looksNoFurther
  have hthird := hindices.position_le indices
  have hsecond := hsuper.position_le super
  refine .bind_patch (hheader.mapFault _) (Decoder.mapFault_eq_ok_iff.mpr front) (by omega) ?_
  refine .bind_patch (hsuper.mapFault _) (Decoder.mapFault_eq_ok_iff.mpr super) (by omega) ?_
  refine .bind_patch (hindices.mapFault _) (Decoder.mapFault_eq_ok_iff.mpr indices) hoffset ?_
  exact htables parent interfaces

/-- A patch that is met in a table of attributes is met in the class. -/
theorem AttributesAt.sameOutcome_decode {all : List UInt8} {holder : Holder} {pool : ConstantPool}
    {table : Cursor} (h : AttributesAt unit all holder pool table)
    (hoffset : table.position ≤ offset)
    (htable : SameOutcome (List.Forall₂ (Attribute.Alike sites)) (Attribute.decodeTable pool table)
      (Attribute.decodeTable pool (table.patch offset bytes))) :
    SameOutcome (ClassFile.Alike sites) (decode unit (.ofBytes all))
      (decode unit ((Cursor.ofBytes all).patch offset bytes)) := by
  have hmembers (members : List Member) : List.Forall₂ (Member.Alike sites) members members :=
    List.forall₂_same.mpr fun member _ ↦ .refl member
  have hbodies (bodies : List Code) : List.Forall₂ (Code.Alike sites) bodies bodies :=
    List.forall₂_same.mpr fun body _ ↦ .refl body
  cases h with
  | @ofField header fields site _ start field front =>
    have hrow := (Member.reads_decodeField unit header.name header.pool).looksNoFurther
    have hsite := front.leadsTo.position_le
    have hfields := (field.leadsTo hrow).position_le
    refine start.sameOutcome_decode (by omega) fun parent interfaces ↦ ?_
    refine .bind_row _ hrow .refl field (by omega)
      (Member.sameOutcome_decodeField unit header.name front hoffset htable)
      fun fields others left halike ↦ ?_
    refine .bind_same _ fun count left ↦ .bind_same _ fun methods left ↦
      .bind_same _ fun attributes left ↦ ?_
    exact .ok ⟨rfl, rfl, halike, hmembers methods, hbodies _⟩ left
  | @ofMethod header fields methods site _ start passed method front =>
    have hfield := (Member.reads_decodeField unit header.name header.pool).looksNoFurther
    have hrow := (Member.reads_decodeMethod unit header.name header.pool).looksNoFurther
    have hsite := front.leadsTo.position_le
    have hmethods := (method.leadsTo hrow).position_le
    have hfields := (passed.leadsTo hfield).position_le
    refine start.sameOutcome_decode (by omega) fun parent interfaces ↦ ?_
    refine .bind_table _ hfield passed (by omega) fun fields ↦ ?_
    refine .bind_row _ hrow .refl method (by omega)
      (Member.sameOutcome_decodeMethod unit header.name front hoffset htable)
      fun methods others left halike ↦ ?_
    refine .bind_same _ fun attributes left ↦ ?_
    exact .ok ⟨rfl, rfl, hmembers fields, halike, hbodies _⟩ left
  | @ofClass header fields methods _ start passed passedToo =>
    have hfield := (Member.reads_decodeField unit header.name header.pool).looksNoFurther
    have hmethod := (Member.reads_decodeMethod unit header.name header.pool).looksNoFurther
    have hmethods := (passedToo.leadsTo hmethod).position_le
    have hfields := (passed.leadsTo hfield).position_le
    refine start.sameOutcome_decode (by omega) fun parent interfaces ↦ ?_
    refine .bind_table _ hfield passed (by omega) fun fields ↦ ?_
    refine .bind_table _ hmethod passedToo hoffset fun methods ↦ ?_
    refine .bind (.mapFault htable _) fun attributes others left halike ↦ ?_
    exact .ok ⟨rfl, rfl, hmembers fields, hmembers methods, Attribute.Alike.bodiesOf halike⟩ left

/-! ### Where the records end -/

theorem FieldsAt.leadsTo {all : List UInt8} {table : Cursor} (h : FieldsAt all header table) :
    (Cursor.ofBytes all).LeadsTo table := by
  obtain ⟨front, super, indices⟩ := h
  exact (ClassHeader.reads_decode.looksNoFurther.leadsTo front).trans <|
    ((reads_decodeSuper header.pool).looksNoFurther.leadsTo super).trans <|
      reads_interfaces.looksNoFurther.leadsTo indices

/-- Tables of attributes, other than those of bodies, stand in the whole of the bytes. -/
theorem AttributesAt.leadsTo {all : List UInt8} {holder : Holder} {pool : ConstantPool}
    {table : Cursor} (h : AttributesAt unit all holder pool table) :
    (Cursor.ofBytes all).LeadsTo table := by
  have hfield (header : ClassHeader) :=
    (Member.reads_decodeField unit header.name header.pool).looksNoFurther
  have hmethod (header : ClassHeader) :=
    (Member.reads_decodeMethod unit header.name header.pool).looksNoFurther
  cases h with
  | ofField start field front =>
    exact start.leadsTo.trans <| (field.leadsTo (hfield _)).trans front.leadsTo
  | ofMethod start passed method front =>
    exact start.leadsTo.trans <| (passed.leadsTo (hfield _)).trans <|
      (method.leadsTo (hmethod _)).trans front.leadsTo
  | ofClass start passed passedToo =>
    exact start.leadsTo.trans <| (passed.leadsTo (hfield _)).trans <| passedToo.leadsTo (hmethod _)

theorem AttributesAt.stop_eq {all : List UInt8} {holder : Holder} {pool : ConstantPool}
    {table : Cursor} (h : AttributesAt unit all holder pool table) : table.stop = all.length :=
  h.leadsTo.stop_eq.trans (Nat.zero_add _)

/-- A record ends in the bytes. -/
theorem ReachesRecord.stop_le {all : List UInt8} {holder : Holder} {pool : ConstantPool}
    {site : Cursor} (h : ReachesRecord unit all holder pool site) : site.stop ≤ all.length := by
  cases h with
  | outside attributes record =>
    have hstop := (record.leadsTo (Attribute.looksNoFurther_decode pool)).stop_eq
    exact Nat.le_of_eq (hstop.trans attributes.stop_eq)
  | inBody attributes enclosing front named delimited code record =>
    rw [(record.leadsTo (looksNoFurther_decodeRecord_none pool)).stop_eq,
      Code.looksNoFurther_decodeFront.stop_eq code]
    obtain ⟨hcount, rfl, -⟩ := Decoder.window_eq_ok_iff.mp delimited
    have hstop := (AttributeHeader.reads_decode pool).looksNoFurther.stop_eq front
    rw [(enclosing.leadsTo (Attribute.looksNoFurther_decode pool)).stop_eq,
      attributes.stop_eq] at hstop
    rw [← hstop, Cursor.stop, Cursor.stop, Cursor.remaining, List.length_take]
    exact Nat.add_le_add_left (Nat.min_le_right _ _) _

/-- Other bytes in the payload of an unread record give the same fault or a class that is alike.
Only a line table inside a body leaves the lines open. -/
theorem ReachesRecord.sameOutcome_decode {all : List UInt8} {holder : Holder} {pool : ConstantPool}
    {site behind : Cursor} {header : AttributeHeader} (h : ReachesRecord unit all holder pool site)
    (hheader : AttributeHeader.decode pool site = (.ok header, behind))
    (hpayload : header.length.toNat ≤ behind.remaining) (hunread : header.IsUnread)
    (hbytes : bytes.length = header.length.toNat) :
    SameOutcome
      (ClassFile.Alike (holder = .body → header.name ≠ AttributeKind.lineNumberTable.name))
      (decode unit (.ofBytes all))
      (decode unit ((Cursor.ofBytes all).patch behind.position bytes)) := by
  have hbehind := (AttributeHeader.reads_decode pool).looksNoFurther.position_le hheader
  have hstop := (AttributeHeader.reads_decode pool).looksNoFurther.stop_eq hheader
  cases h with
  | outside attributes record =>
    have hrow := Attribute.looksNoFurther_decode pool
    have hsite := sameOutcome_decodeRecord_of_isUnread (some (Code.decode pool)) hunread hheader
      hpayload hbytes
    have htable := (record.leadsTo hrow).position_le
    refine attributes.sameOutcome_decode (by omega) ?_
    refine .counted16 hrow .refl record hbehind (hsite.imp fun value other halike ↦ ?_)
    exact .of_none halike.1.1 halike.1.2
  | @inBody _ _ table outer before payload left inner _ front body attributes enclosing hfront
      named delimited code record =>
    have hrow := looksNoFurther_decodeRecord_none pool
    have hpositions := (record.leadsTo hrow).position_le
    have hstops := (record.leadsTo hrow).stop_eq
    have hinner := Code.looksNoFurther_decodeFront.position_le code
    have hinnerStop := Code.looksNoFurther_decodeFront.stop_eq code
    have houter := (AttributeHeader.reads_decode pool).looksNoFurther.position_le hfront
    have hbefore : payload.position = before.position := by
      obtain ⟨-, rfl, -⟩ := Decoder.window_eq_ok_iff.mp delimited
      rfl
    have htable := (enclosing.leadsTo (Attribute.looksNoFurther_decode pool)).position_le
    have hend : behind.position + bytes.length ≤ payload.stop := by
      rw [← hinnerStop, ← hstops, ← hstop, Cursor.stop, hbytes]
      exact Nat.add_le_add_left hpayload _
    have hsite := sameOutcome_decodeRecord_of_isUnread none hunread hheader hpayload hbytes
    have hbody := Code.sameOutcome_decode code record hbehind <|
      hsite.imp fun value other halike
        (hsites : Holder.body = .body → header.name ≠ AttributeKind.lineNumberTable.name) ↦
          halike.2 (hsites rfl)
    refine attributes.sameOutcome_decode (by omega) ?_
    refine .counted16 (Attribute.looksNoFurther_decode pool) .refl enclosing (by omega) ?_
    exact sameOutcome_decodeRecord_of_body hfront named delimited (by omega) hend hbody

end ClassFile

end Class

/-! ### Records of fixed bytes -/

namespace Decoder

variable {ε α : Type}

/-- Whether a decoder succeeds and what it answers passes a test. -/
def succeeds (decoder : Decoder ε α) (cursor : Cursor) (test : α → Cursor → Bool) : Bool :=
  match decoder cursor with
  | (.ok value, left) => test value left
  | (.error _, _) => false

theorem exists_of_succeeds {decoder : Decoder ε α} {cursor : Cursor} {test : α → Cursor → Bool}
    (h : succeeds decoder cursor test = true) :
    ∃ value left, decoder cursor = (.ok value, left) ∧ test value left = true := by
  unfold succeeds at h
  split at h
  · exact ⟨_, _, ‹_›, h⟩
  · simp at h

/-- A table has a first row that passes a test. -/
def hasFirstRow (table : Cursor) (test : Cursor → Bool) : Bool :=
  (Decoder.u16 : Decoder ClassFault UInt16).succeeds table fun count site ↦
    decide (0 < count.toNat) && test site

theorem exists_of_hasFirstRow {table : Cursor} {test : Cursor → Bool}
    (h : hasFirstRow table test = true) (row : Decoder ε α) :
    ∃ site, row.ReachesRow table site ∧ test site = true := by
  obtain ⟨count, site, hcount, h⟩ := exists_of_succeeds h
  obtain ⟨hpos, htest⟩ := Bool.and_eq_true_iff.mp h
  exact ⟨site, ⟨count, site, 0, [], hcount, of_decide_eq_true hpos, rfl⟩, htest⟩

end Decoder

namespace ClassFile

open Decoder (succeeds hasFirstRow exists_of_succeeds exists_of_hasFirstRow)

/-- Whether bytes are the front of a class without fields, the first attribute of whose first method
is a body with an attribute, and the front of that attribute passes a test. -/
def firstInBody (bytes : List UInt8) (test : AttributeHeader → Cursor → Bool) : Bool :=
  succeeds ClassHeader.decode (.ofBytes bytes) fun header first ↦
  succeeds (decodeSuper header.pool) first fun _ second ↦
  succeeds (Decoder.counted16 Decoder.u16 : Decoder ClassFault _) second fun _ fields ↦
  succeeds (Decoder.u16 : Decoder ClassFault _) fields fun count methods ↦ count == 0 &&
  hasFirstRow methods fun method ↦
  succeeds (Member.decodeHead header.pool) method fun head table ↦
    (header.pool.utf8? head.descriptorIndex).toBool &&
  hasFirstRow table fun outer ↦
  succeeds (AttributeHeader.decode header.pool) outer fun code behind ↦
    code.name == Code.attributeName &&
  succeeds (Decoder.window code.length.toNat : Decoder ClassFault _) behind fun payload _ ↦
  succeeds Code.decodeFront payload fun _ inner ↦
  hasFirstRow inner fun site ↦
  succeeds (AttributeHeader.decode header.pool) site test

/-- The reader of such a class comes to the attribute. -/
theorem exists_reachesRecord_of_firstInBody (unit : String) {bytes : List UInt8}
    {test : AttributeHeader → Cursor → Bool} (h : firstInBody bytes test = true) :
    ∃ pool site header behind, ReachesRecord unit bytes .body pool site ∧
      AttributeHeader.decode pool site = (.ok header, behind) ∧ test header behind = true := by
  obtain ⟨front, first, hfront, h⟩ := exists_of_succeeds h
  obtain ⟨parent, second, hparent, h⟩ := exists_of_succeeds h
  obtain ⟨interfaces, fields, hinterfaces, h⟩ := exists_of_succeeds h
  obtain ⟨count, methods, hfields, h⟩ := exists_of_succeeds h
  obtain ⟨hcount, h⟩ := Bool.and_eq_true_iff.mp h
  obtain rfl := eq_of_beq hcount
  obtain ⟨method, hmethod, h⟩ :=
    exists_of_hasFirstRow h (Member.decodeMethod unit front.name front.pool)
  obtain ⟨head, table, hhead, h⟩ := exists_of_succeeds h
  obtain ⟨hdescriptor, h⟩ := Bool.and_eq_true_iff.mp h
  obtain ⟨outer, houter, h⟩ := exists_of_hasFirstRow h (Attribute.decode front.pool)
  obtain ⟨code, before, hcode, h⟩ := exists_of_succeeds h
  obtain ⟨hname, h⟩ := Bool.and_eq_true_iff.mp h
  obtain ⟨payload, left, hpayload, h⟩ := exists_of_succeeds h
  obtain ⟨body, inner, hbody, h⟩ := exists_of_succeeds h
  obtain ⟨site, hsite, h⟩ := exists_of_hasFirstRow h (decodeRecord front.pool none)
  obtain ⟨header, behind, hheader, htest⟩ := exists_of_succeeds h
  have hmember : Member.AttributesAt front.pool method table := by
    cases hfound : front.pool.utf8? head.descriptorIndex with
    | error fault => simp [hfound, Except.toBool] at hdescriptor
    | ok descriptor => exact ⟨head, descriptor, hhead, hfound⟩
  have htable : AttributesAt unit bytes .method front.pool table :=
    .ofMethod (.intro hfront hparent hinterfaces) ⟨0, methods, [], hfields, rfl⟩ hmethod hmember
  refine ⟨front.pool, site, header, behind, ?_, hheader, htest⟩
  exact .inBody htable houter hcode (eq_of_beq hname) hpayload hbody hsite

end ClassFile

end MonitorAudit
