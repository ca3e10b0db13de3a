import MonitorAudit.Proofs.Bytecode.Faults
import MonitorAudit.Proofs.ClassFile.Failure
import MonitorAudit.Proofs.ClassFile.Truncation

/-!
# Faults point at the bytes they are about

`ClassFile.Points unit bytes fault` says that what the fault states is so in the bytes of the whole
file, with offsets that count from its start. Each kind of fault has one rule, and a fault of an
attribute names a record that the reader of the class comes to (`RecordAt`). `FailsAt.points` goes
through the parts of the file in which the reader can fail. A cursor keeps its place in the file
down to the payloads (`Cursor.StandsIn`), and so the offsets that are met there are those of the
file.

`faults_point_at_bytes` puts class files and code together.
-/

set_option autoImplicit false

namespace MonitorAudit

open Decoder (FaultsIn)

/-! ### Stretches of a file -/

namespace Cursor

variable {cursor : Cursor} {bytes : List UInt8}

theorem StandsIn.window {payload left : Cursor} {count : Nat} (h : cursor.StandsIn bytes)
    (hpayload : (Decoder.window count : Decoder ClassFault Cursor) cursor = (.ok payload, left)) :
    payload.StandsIn bytes := by
  obtain ⟨-, rfl, -⟩ := Decoder.window_eq_ok_iff.mp hpayload
  exact (List.take_prefix _ _).trans h

theorem StandsIn.getElem? (h : cursor.StandsIn bytes) {offset : Nat} {byte : UInt8}
    (hbyte : cursor.HasByte offset byte) : bytes[offset]? = some byte := by
  obtain ⟨behind, hbehind⟩ := h
  obtain ⟨hoffset, hbyte⟩ := hbyte
  obtain ⟨more, rfl⟩ := Nat.exists_eq_add_of_le hoffset
  rw [Nat.add_sub_cancel_left] at hbyte
  rw [← List.getElem?_drop, ← hbehind, List.getElem?_append_left, hbyte]
  exact (List.getElem?_eq_some_iff.mp hbyte).1

end Cursor

namespace ClassFile

variable {unit : String} {bytes : List UInt8}

theorem ReachesRecord.standsIn {holder : Holder} {pool : ConstantPool} {site : Cursor}
    (h : ReachesRecord unit bytes holder pool site) : site.StandsIn bytes := by
  have hrow := Attribute.looksNoFurther_decode pool
  have hstart := Cursor.standsIn_ofBytes bytes
  cases h with
  | outside attributes record =>
    exact hstart.of_leadsTo (attributes.leadsTo.trans (record.leadsTo hrow))
  | inBody attributes enclosing front named delimited code record =>
    have hbehind := hstart.of_leadsTo <| attributes.leadsTo.trans <|
      (enclosing.leadsTo hrow).trans <|
        (AttributeHeader.reads_decode pool).looksNoFurther.leadsTo front
    exact (hbehind.window delimited).of_leadsTo <|
      (Code.looksNoFurther_decodeFront.leadsTo code).trans <|
        record.leadsTo (looksNoFurther_decodeRecord_none pool)

/-! ### Where faults point -/

section Points

variable (unit : String) (bytes : List UInt8)

/-- The front of an attribute record stands at the offset: the slot of its name and the length of
its payload. The reader of the class comes to it among the attributes of the holder. -/
inductive HeaderAt (holder : Holder) : Nat → String → UInt32 → Prop
  | intro {pool : ConstantPool} {site : Cursor} {nameIndex : UInt16} {name : String}
      {length : UInt32} {rest : List UInt8}
      (reached : ReachesRecord unit bytes holder pool site)
      (named : pool.utf8? nameIndex = .ok name)
      (drop_eq : bytes.drop site.position = word16 nameIndex ++ (word32 length ++ rest)) :
      HeaderAt holder site.position name length

/-- An attribute record stands at the offset, and its payload is in the file too. -/
structure RecordAt (holder : Holder) (offset : Nat) (name : String) (length : UInt32) : Prop where
  header : HeaderAt unit bytes holder offset name length
  payload_le : offset + 6 + length.toNat ≤ bytes.length

/-- What the fault says about the bytes of the file is so. Offsets count from the start of the file,
in bodies of code too. A use of the constant pool names a slot and no place in the bytes. -/
inductive Points : ClassFault → Prop
  | badMagic {found : UInt32} {rest : List UInt8} (front : bytes = word32 found ++ rest)
      (ne_magic : found ≠ 0xCAFEBABE) : Points (.malformed (.badMagic found))
  | unsupportedVersion {minor major : UInt16} {rest : List UInt8}
      (front : bytes = word32 0xCAFEBABE ++ (word16 minor ++ (word16 major ++ rest)))
      (unsupported : major.toNat < 45) : Points (.malformed (.unsupportedVersion major minor))
  | truncated {offset wanted : Nat} (offset_le : offset ≤ bytes.length) (one_le : 1 ≤ wanted) :
      Points (.malformed (.truncated offset wanted))
  | badConstantTag {minor major count index : UInt16} {rest : List UInt8} {offset : Nat}
      {tag : UInt8}
      (front : bytes =
        word32 0xCAFEBABE ++ (word16 minor ++ (word16 major ++ (word16 count ++ rest))))
      (byte : bytes[offset]? = some tag) (undefined : ∀ kind : ConstantKind, kind.tag ≠ tag)
      (one_le : 1 ≤ index.toNat) (lt_count : index.toNat < count.toNat) :
      Points (.malformed (.badConstantTag tag index offset))
  | pool (fault : PoolFault) : Points (.pool fault)
  | sizeMismatch {holder : Holder} {name : String} {offset consumed : Nat} {declared : UInt32}
      (record : RecordAt unit bytes holder offset name declared)
      (ne_declared : consumed ≠ declared.toNat) :
      Points (.record (.sizeMismatch name offset declared consumed))
  | invalidTag {holder : Holder} {name : String} {start offset : Nat} {length : UInt32}
      {tag : UInt8} (record : RecordAt unit bytes holder start name length)
      (le_offset : start + 6 ≤ offset) (offset_lt : offset < start + 6 + length.toNat)
      (byte : bytes[offset]? = some tag) : Points (.record (.invalidTag name offset tag))
  | tooDeep {holder : Holder} {name : String} {start offset : Nat} {length : UInt32}
      (record : RecordAt unit bytes holder start name length)
      (le_offset : start + 6 ≤ offset) (offset_le : offset ≤ start + 6 + length.toNat) :
      Points (.record (.tooDeep name offset maxElementLevels))
  | misplaced {holder : Holder} {start offset : Nat} {length declared : UInt32}
      (enclosing : RecordAt unit bytes holder start Code.attributeName length)
      (header : HeaderAt unit bytes .body offset Code.attributeName declared)
      (le_offset : start + 6 ≤ offset) (header_le : offset + 6 ≤ start + 6 + length.toNat) :
      Points (.record (.misplaced Code.attributeName offset Code.attributeName))

end Points

/-! ### Records -/

/-- The front of a record that is read stands where it is read, and is six bytes long. -/
theorem ReachesRecord.headerAt {holder : Holder} {pool : ConstantPool} {site behind : Cursor}
    {header : AttributeHeader} (h : ReachesRecord unit bytes holder pool site)
    (front : AttributeHeader.decode pool site = (.ok header, behind)) :
    HeaderAt unit bytes holder header.offset header.name header.length ∧
      header.offset = site.position ∧ behind.position = site.position + 6 ∧
        behind.stop = site.stop := by
  have hstop := (AttributeHeader.reads_decode pool).looksNoFurther.stop_eq front
  obtain ⟨used, ⟨nameIndex, length, name, hname, rfl, rfl⟩, hrest, hposition⟩ :=
    (AttributeHeader.reads_decode pool _ _ _).mp front
  obtain ⟨after, hafter⟩ := h.standsIn
  have hdrop : bytes.drop site.position =
      word16 nameIndex ++ (word32 length ++ (behind.rest ++ after)) := by
    simp only [← hafter, hrest, List.append_assoc]
  exact ⟨.intro h hname hdrop, rfl, by simpa using hposition, hstop⟩

/-- A record whose payload is split off stands in the file, and its payload stands behind its
front. -/
theorem ReachesRecord.recordAt {holder : Holder} {pool : ConstantPool}
    {site behind payload left : Cursor} {header : AttributeHeader}
    (h : ReachesRecord unit bytes holder pool site)
    (front : AttributeHeader.decode pool site = (.ok header, behind))
    (delimited : (Decoder.window header.length.toNat : Decoder ClassFault Cursor) behind =
      (.ok payload, left)) :
    RecordAt unit bytes holder header.offset header.name header.length ∧
      payload.StandsIn bytes ∧ payload.position = header.offset + 6 ∧
        payload.remaining = header.length.toNat := by
  obtain ⟨hheader, hoffset, hposition, hstop⟩ := h.headerAt front
  have hremaining := Decoder.remaining_of_window delimited
  have hstands := h.standsIn.of_leadsTo
    ((AttributeHeader.reads_decode pool).looksNoFurther.leadsTo front)
  have hpayload := hstands.window delimited
  obtain ⟨hcount, rfl, -⟩ := Decoder.window_eq_ok_iff.mp delimited
  refine ⟨⟨hheader, ?_⟩, hpayload, by rw [hoffset]; exact hposition, hremaining⟩
  have hsite := h.stop_le
  rw [← hstop, Cursor.stop] at hsite
  omega

/-- What a record makes of a fault in its payload points at the record and into the payload. -/
theorem ReachesRecord.points_of_explains {holder : Holder} {pool : ConstantPool}
    {site behind payload left : Cursor} {header : AttributeHeader} {fault : ClassFault}
    (h : ReachesRecord unit bytes holder pool site)
    (front : AttributeHeader.decode pool site = (.ok header, behind))
    (delimited : (Decoder.window header.length.toNat : Decoder ClassFault Cursor) behind =
      (.ok payload, left))
    (explains : header.Explains payload fault) : Points unit bytes fault := by
  obtain ⟨hrecord, hstands, hposition, hlength⟩ := h.recordAt front delimited
  cases explains with
  | sizeMismatch hne => exact .sizeMismatch hrecord hne
  | @invalidTag offset tag hbyte =>
    have hinside := (List.getElem?_eq_some_iff.mp hbyte.2).1
    have hoffset := hbyte.1
    rw [Cursor.remaining] at hlength
    exact .invalidTag hrecord (by omega) (by omega) (hstands.getElem? hbyte)
  | tooDeep hle hstop =>
    rw [Cursor.stop] at hstop
    exact .tooDeep hrecord (by omega) (by omega)

end ClassFile

/-! ### The parts of a file -/

/-- A read past the end asks for bytes. -/
theorem Decoder.IsShort.not_isFinal {cursor : Cursor} {count : Nat} {fault : ClassFault}
    (h : IsShort cursor count fault) : ¬ fault.IsFinal := by
  obtain ⟨-, rfl⟩ := h
  simp [ClassFault.IsFinal, endOfData?, ofEndOfData]

/-- The kind of fault that asks for bytes or is one of the constant pool. -/
def ClassFault.ofPool : FaultKind ClassFault where
  Holds _ fault := fault.IsFinal → ∃ found, fault = .pool found
  of_isShort h hfinal := absurd hfinal h.not_isFinal
  of_advance _ h := h

theorem Decoder.exists_pool_of_failsWith {α : Type} {result : Except PoolFault α} {cursor : Cursor}
    {fault : ClassFault} (h : (Decoder.ofPool result).FailsWith cursor fault) :
    ∃ found, fault = .pool found := by
  rw [Decoder.ofPool, failsWith_ofExcept_iff] at h
  cases result with
  | ok value => simp [Except.mapError] at h
  | error found => exact ⟨found, (Except.error.inj h).symm⟩

/-- Every fault of the constant pool is of the kind. -/
def FaultKind.HasPoolFaults (kind : FaultKind ClassFault) : Prop :=
  ∀ cursor found, kind.Holds cursor (.pool found)

theorem ClassFault.hasPoolFaults_ofPool : ofPool.HasPoolFaults := fun _ found _ ↦ ⟨found, rfl⟩

section PoolFaults

variable {kind : FaultKind ClassFault} (hpool : kind.HasPoolFaults)

include hpool

theorem Decoder.faultsIn_ofPool {α : Type} (result : Except PoolFault α) :
    (Decoder.ofPool result).FaultsIn kind := by
  refine ⟨fun cursor value left h ↦ ?_, fun h ↦ ?_⟩
  · obtain rfl := (Prod.mk.inj h).2
    exact .refl cursor
  · obtain ⟨found, rfl⟩ := exists_pool_of_failsWith h
    exact hpool _ found

theorem Member.faultsIn_decodeHead (pool : ConstantPool) : (decodeHead pool).FaultsIn kind :=
  .bind .u16 fun _ ↦ .bind .u16 fun _ ↦ .bind .u16 fun _ ↦ (Decoder.faultsIn_ofPool hpool _).map _

theorem ClassFile.faultsIn_decodeSuper (pool : ConstantPool) : (decodeSuper pool).FaultsIn kind :=
  .bind .u16 fun _ ↦ .ite (.pure _) ((Decoder.faultsIn_ofPool hpool _).map _)

end PoolFaults

/-- A table fails in one of its rows, if it asks for no bytes. -/
theorem Decoder.exists_row_of_failsWith {α : Type} {row : Decoder ClassFault α} {table : Cursor}
    {fault : ClassFault} (h : (counted16 row).FailsWith table fault) (hfinal : fault.IsFinal) :
    ∃ site, row.ReachesRow table site ∧ row.FailsWith site fault :=
  (failsWith_counted16_iff.mp h).resolve_left fun hcount ↦
    (failsWith_u16_iff.mp hcount).not_isFinal hfinal

/-- A fault that is passed on out of a payload is the one that was met, and asks for no bytes. -/
theorem PayloadFault.ofClassFault_eq_other_iff {fault found : ClassFault} :
    ofClassFault found = .other fault ↔ found = fault ∧ fault.IsFinal := by
  constructor
  · intro h
    cases hasks : endOfData? found with
    | none =>
      rw [ofClassFault_of_isFinal hasks] at h
      obtain rfl := PayloadFault.other.inj h
      exact ⟨rfl, hasks⟩
    | some failure =>
      rw [(ClassFault.endOfData?_eq_some_iff found failure).mp hasks] at h
      simp [ofClassFault] at h
  · rintro ⟨rfl, hfinal⟩
    exact ofClassFault_of_isFinal hfinal

/-- A body fails with a fault of its own in one of its attributes. -/
theorem Code.exists_row_of_failsWith {pool : ConstantPool} {payload : Cursor} {fault : ClassFault}
    (h : (decode pool).FailsWith payload (.other fault)) :
    ∃ body inner site, decodeFront payload = (.ok body, inner) ∧
      (decodeRecord pool none).ReachesRow inner site ∧
        (decodeRecord pool none).FailsWith site fault := by
  rw [decode_eq] at h
  rcases Decoder.failsWith_bind_iff.mp h with hfront | ⟨body, inner, hbody, hrest⟩
  · have hnever : FaultsIn decodeFront (PayloadFault.inside fun _ ↦ False) := faultsIn_decodeFront
    exact (hnever.holds hfront).elim
  · have hattributes := (Decoder.failsWith_bind_iff.mp hrest).resolve_right (by simp)
    obtain ⟨found, hfound, hother⟩ := Decoder.failsWith_mapFault_iff.mp hattributes
    obtain ⟨rfl, hfinal⟩ := PayloadFault.ofClassFault_eq_other_iff.mp hother
    obtain ⟨site, hrow, hsite⟩ := Decoder.exists_row_of_failsWith hfound hfinal
    exact ⟨body, inner, site, hbody, hrow, hsite⟩

/-- Behind its name a member fails in its descriptor or in its attributes. -/
theorem Member.fault_of_decodeBody {pool : ConstantPool} {head : Head} {site table : Cursor}
    {fault : ClassFault} (hhead : decodeHead pool site = (.ok head, table))
    (h : (decodeBody pool head).FailsWith table fault) :
    (∃ found, fault = .pool found) ∨
      AttributesAt pool site table ∧ (Attribute.decodeTable pool).FailsWith table fault := by
  rcases Decoder.failsWith_bind_iff.mp h with hdescriptor | ⟨descriptor, behind, hdescriptor, h⟩
  · exact .inl (Decoder.exists_pool_of_failsWith hdescriptor)
  · obtain ⟨hfound, rfl⟩ := Prod.mk.inj hdescriptor
    refine .inr ⟨⟨head, descriptor, hhead, ?_⟩,
      (Decoder.failsWith_bind_iff.mp h).resolve_right (by simp)⟩
    cases hutf8 : pool.utf8? head.descriptorIndex with
    | error found => simp [hutf8, Except.mapError] at hfound
    | ok text => simpa [hutf8, Except.mapError] using hfound

/-! ### The constant pool -/

/-- The faults of a pool whose slots from the first on, up to the count, are still to be filled: a
tag that no kind of constant has, for one of these slots. -/
def ConstantPool.TagFault (first count : Nat) (cursor : Cursor) : MalformedClass → Prop
  | .badConstantTag tag index offset =>
    cursor.HasByte offset tag ∧ (∀ kind : ConstantKind, kind.tag ≠ tag) ∧
      ∃ slot, first ≤ slot ∧ slot < count ∧ index = UInt16.ofNat slot
  | .truncated _ _ => True
  | _ => False

def ConstantPool.tagFaults (first count : Nat) : FaultKind MalformedClass where
  Holds := TagFault first count
  of_isShort := by
    rintro cursor count fault ⟨-, rfl⟩
    trivial
  of_advance := by
    intro cursor moved fault hmoved h
    cases fault with
    | badConstantTag tag index offset => exact ⟨h.1.of_advance, h.2⟩
    | _ => exact h

theorem ConstantKind.faultsIn_decode {ε : Type} [OfEndOfData ε] {faults : FaultKind ε}
    (kind : ConstantKind) : (kind.decode : Decoder ε Constant).FaultsIn faults := by
  cases kind with
  | utf8 => exact .bind .u16 fun length ↦ .map (.take length.toNat) _
  | integer => exact .map .i32 _
  | float => exact .map .u32 _
  | long | double => exact .map .u64 _
  | classRef | string | methodType | moduleRef | packageRef => exact .map .u16 _
  | methodHandle => exact .bind .u8 fun _ ↦ .map .u16 _
  | _ => exact .bind .u16 fun _ ↦ .map .u16 _

namespace ConstantPool

/-- A constant is refused for a tag that no kind has, where the tag stands. -/
theorem faultsIn_decodeConstant {index count : Nat} (hindex : index < count) :
    (decodeConstant index).FaultsIn (tagFaults index count) := by
  refine .tagged fun start tag ↦ ?_
  cases hkind : ConstantKind.ofTag? tag with
  | some kind => exact .inl kind.faultsIn_decode
  | none =>
    refine .inr ⟨_, rfl, fun rest ↦ ⟨Cursor.hasByte_cons tag rest start, fun kind htag ↦ ?_,
      index, Nat.le_refl index, hindex, rfl⟩⟩
    rw [← htag, ConstantKind.ofTag?_tag] at hkind
    simp at hkind

theorem faultsIn_decodeConstantsOnto (count index : Nat) (constants : List Constant) :
    (decodeConstantsOnto count index constants).FaultsIn (tagFaults index count) := by
  induction index, constants using decodeConstantsOnto.induct count with
  | case1 index constants hindex ih =>
    rw [decodeConstantsOnto, if_pos hindex]
    refine (faultsIn_decodeConstant hindex).bind fun constant ↦
      (ih constant).imp fun cursor fault h ↦ ?_
    cases fault with
    | badConstantTag tag index offset =>
      obtain ⟨hbyte, hundefined, slot, hfirst, hlast⟩ := h
      exact ⟨hbyte, hundefined, slot, Nat.le_of_add_right_le hfirst, hlast⟩
    | _ => exact h
  | case2 index constants hindex =>
    rw [decodeConstantsOnto, if_neg hindex]
    exact .pure _

end ConstantPool

namespace ClassFile

variable {unit : String} {bytes : List UInt8}

/-! ### Faults of attributes -/

/-- The fault of a record inside a body points at the record, or at its front and the body around
it. -/
theorem points_inBody {holder : Holder} {pool : ConstantPool}
    {table outer behind payload left inner site : Cursor} {header : AttributeHeader} {body : Code}
    {fault : ClassFault}
    (attributes : AttributesAt unit bytes holder pool table)
    (enclosing : (Attribute.decode pool).ReachesRow table outer)
    (front : AttributeHeader.decode pool outer = (.ok header, behind))
    (named : header.name = Code.attributeName)
    (delimited : (Decoder.window header.length.toNat : Decoder ClassFault Cursor) behind =
      (.ok payload, left))
    (code : Code.decodeFront payload = (.ok body, inner))
    (record : (decodeRecord pool none).ReachesRow inner site)
    (failure : (decodeRecord pool none).FailsWith site fault) (hfinal : fault.IsFinal) :
    Points unit bytes fault := by
  have hreached : ReachesRecord unit bytes .body pool site :=
    .inBody attributes enclosing front named delimited code record
  have hnone : ∀ body ∈ (none : Option (Decoder PayloadFault Code)),
      body.FaultsIn (PayloadFault.inside fun _ ↦ False) := by simp
  have hfault : RecordFault pool none site fault := recordFault_of_failsWith hnone failure
  cases hfault with
  | short hshort => exact absurd hfinal hshort.not_isFinal
  | unnamed found => exact .pool found
  | payload hfront hdelimited hexplains =>
    exact hreached.points_of_explains hfront hdelimited hexplains
  | body _ _ hsome => exact absurd hsome (by simp)
  | @misplaced nested beyond hfront hnamed =>
    obtain ⟨hrecord, -, hposition, hlength⟩ :=
      (ReachesRecord.outside attributes enclosing).recordAt front delimited
    obtain ⟨hheader, hoffset, hbeyond, hstop⟩ := hreached.headerAt hfront
    rw [named] at hrecord
    rw [hnamed] at hheader ⊢
    -- The record starts behind the front of the body and ends in its payload.
    have hinner := Code.looksNoFurther_decodeFront.position_le code
    have hinnerStop := Code.looksNoFurther_decodeFront.stop_eq code
    have hsite := record.leadsTo (looksNoFurther_decodeRecord_none pool)
    have hsitePosition := hsite.position_le
    have hsiteStop := hsite.stop_eq
    simp only [Cursor.stop] at hinnerStop hsiteStop hstop
    exact .misplaced hrecord hheader (by omega) (by omega)

/-- The fault of a record of a class, a field or a method points at the record, or it is that of a
record inside the body that the record holds. -/
theorem points_outside {holder : Holder} {pool : ConstantPool} {table site : Cursor}
    {fault : ClassFault} (attributes : AttributesAt unit bytes holder pool table)
    (record : (Attribute.decode pool).ReachesRow table site)
    (failure : (Attribute.decode pool).FailsWith site fault) (hfinal : fault.IsFinal) :
    Points unit bytes fault := by
  have hreached : ReachesRecord unit bytes holder pool site := .outside attributes record
  have hfault : RecordFault pool (some (Code.decode pool)) site fault :=
    recordFault_of_failsWith (by simpa using Code.faultsIn_decode pool) failure
  cases hfault with
  | short hshort => exact absurd hfinal hshort.not_isFinal
  | unnamed found => exact .pool found
  | misplaced _ _ hnone => exact absurd hnone (by simp)
  | payload front delimited explains => exact hreached.points_of_explains front delimited explains
  | body front named some_body delimited failure =>
    obtain rfl := Option.some.inj some_body
    obtain ⟨body, inner, nested, hcode, hrow, hnested⟩ := Code.exists_row_of_failsWith failure
    exact points_inBody attributes record front named delimited hcode hrow hnested hfinal

/-- The fault of a table of attributes is one of a record in it. -/
theorem AttributesAt.points {holder : Holder} {pool : ConstantPool} {table : Cursor}
    {fault : ClassFault} (h : AttributesAt unit bytes holder pool table)
    (failure : (Attribute.decodeTable pool).FailsWith table fault) (hfinal : fault.IsFinal) :
    Points unit bytes fault := by
  obtain ⟨site, hrow, hsite⟩ := Decoder.exists_row_of_failsWith failure hfinal
  exact points_outside h hrow hsite hfinal

/-! ### Faults of a class -/

/-- The fault of the constant pool points at a tag. -/
theorem points_of_pool {minor major : UInt16} {cursor : Cursor} {fault : MalformedClass}
    (front : bytes = word32 0xCAFEBABE ++ (word16 minor ++ (word16 major ++ cursor.rest)))
    (stands : cursor.StandsIn bytes) (failure : ConstantPool.decode.FailsWith cursor fault)
    (hfinal : (ClassFault.malformed fault).IsFinal) : Points unit bytes (.malformed fault) := by
  rcases Decoder.failsWith_bind_iff.mp failure with hshort | ⟨count, start, hcount, hrest⟩
  · obtain ⟨-, rfl⟩ := Decoder.failsWith_u16_iff.mp hshort
    simp [ClassFault.IsFinal, endOfData?, ofEndOfData] at hfinal
  · have hstart := stands.of_leadsTo (Decoder.Reads.u16.advances _ _ _ hcount)
    obtain ⟨_, rfl, hcursor, -⟩ := (Decoder.Reads.u16 _ _ _).mp hcount
    have hconstants := (Decoder.failsWith_bind_iff.mp hrest).resolve_right (by simp)
    have htag : ConstantPool.TagFault 1 count.toNat start fault :=
      (ConstantPool.faultsIn_decodeConstantsOnto count.toNat 1 []).holds hconstants
    cases fault with
    | badConstantTag tag index offset =>
      obtain ⟨hbyte, hundefined, slot, hone, hslot, rfl⟩ := htag
      have hindex : (UInt16.ofNat slot).toNat = slot :=
        UInt16.toNat_ofNat_of_lt' (Nat.lt_trans hslot count.toNat_lt)
      rw [hcursor] at front
      exact .badConstantTag front (hstart.getElem? hbyte) hundefined (by omega) (by omega)
    | truncated offset wanted => simp [ClassFault.IsFinal, endOfData?] at hfinal
    | badMagic found => exact htag.elim
    | unsupportedVersion major minor => exact htag.elim

/-- The fault of the front of a class points at its first bytes or at a constant. -/
theorem points_of_header {fault : ClassFault}
    (h : ClassHeader.decode.FailsWith (.ofBytes bytes) fault) (hfinal : fault.IsFinal) :
    Points unit bytes fault := by
  have hu16 {cursor : Cursor}
      (h : (Decoder.u16 : Decoder ClassFault UInt16).FailsWith cursor fault) :
      Points unit bytes fault :=
    absurd hfinal (Decoder.failsWith_u16_iff.mp h).not_isFinal
  rcases Decoder.failsWith_bind_iff.mp h with hshort | ⟨found, first, hfound, h⟩
  · exact absurd hfinal (Decoder.failsWith_u32_iff.mp hshort).not_isFinal
  have hfirst := Decoder.Reads.u32.advances _ _ _ hfound
  obtain ⟨_, rfl, hbytes, -⟩ := (Decoder.Reads.u32 _ _ _).mp hfound
  split at h
  · rename_i hmagic
    rw [← Decoder.failsWith_fail_iff.mp h]
    exact .badMagic hbytes hmagic
  rename_i hmagic
  obtain rfl := Classical.not_not.mp hmagic
  rcases Decoder.failsWith_bind_iff.mp h with hshort | ⟨minor, second, hminor, h⟩
  · exact hu16 hshort
  rcases Decoder.failsWith_bind_iff.mp h with hshort | ⟨major, third, hmajor, h⟩
  · exact hu16 hshort
  have hthird := (Cursor.standsIn_ofBytes bytes).of_leadsTo <| hfirst.trans <|
    (Decoder.Reads.u16.advances _ _ _ hminor).trans (Decoder.Reads.u16.advances _ _ _ hmajor)
  obtain ⟨_, rfl, hrest, -⟩ := (Decoder.Reads.u16 _ _ _).mp hminor
  obtain ⟨_, rfl, hrest', -⟩ := (Decoder.Reads.u16 _ _ _).mp hmajor
  rw [Cursor.ofBytes, hrest, hrest'] at hbytes
  split at h
  · rename_i hversion
    rw [← Decoder.failsWith_fail_iff.mp h]
    exact .unsupportedVersion hbytes (UInt16.lt_iff_toNat_lt.mp hversion)
  rcases Decoder.failsWith_bind_iff.mp h with hpool | ⟨pool, fourth, -, h⟩
  · obtain ⟨inner, hinner, rfl⟩ := Decoder.failsWith_mapFault_iff.mp hpool
    exact points_of_pool hbytes hthird hinner hfinal
  have hname : FaultsIn (do
      let accessFlags ← Decoder.u16
      let thisClass ← Decoder.u16
      let name ← Decoder.ofPool (pool.className? thisClass)
      return (⟨minor, major, pool, accessFlags, thisClass, dotted name⟩ : ClassHeader))
      ClassFault.ofPool :=
    .bind .u16 fun _ ↦ .bind .u16 fun _ ↦
      (Decoder.faultsIn_ofPool ClassFault.hasPoolFaults_ofPool _).map _
  obtain ⟨found, rfl⟩ := hname.holds h hfinal
  exact .pool found

/-- Wherever a class fails for a fault that asks for no bytes, the fault points at bytes. -/
theorem FailsAt.points {className? methodName? : Option String} {fault : ClassFault}
    (h : FailsAt unit bytes className? methodName? fault) (hfinal : fault.IsFinal) :
    Points unit bytes fault := by
  have hu16 {cursor : Cursor}
      (h : (Decoder.u16 : Decoder ClassFault UInt16).FailsWith cursor fault) :
      Points unit bytes fault :=
    absurd hfinal (Decoder.failsWith_u16_iff.mp h).not_isFinal
  have hpool (h : ∃ found, fault = .pool found) : Points unit bytes fault := by
    obtain ⟨found, rfl⟩ := h
    exact .pool found
  have hhead (pool : ConstantPool) : (Member.decodeHead pool).FaultsIn ClassFault.ofPool :=
    Member.faultsIn_decodeHead ClassFault.hasPoolFaults_ofPool pool
  have hsuper (pool : ConstantPool) : (decodeSuper pool).FaultsIn ClassFault.ofPool :=
    faultsIn_decodeSuper ClassFault.hasPoolFaults_ofPool pool
  cases h with
  | front failure => exact points_of_header failure hfinal
  | parent front failure => exact hpool ((hsuper _).holds failure hfinal)
  | interfaces front super failure =>
    obtain ⟨site, -, hsite⟩ := Decoder.exists_row_of_failsWith failure hfinal
    exact hu16 hsite
  | fieldCount start failure => exact hu16 failure
  | field start row failure =>
    rcases Decoder.failsWith_bind_iff.mp failure with hfront | ⟨head, table, hfront, hbody⟩
    · exact hpool ((hhead _).holds hfront hfinal)
    · rcases Member.fault_of_decodeBody hfront hbody with hdescriptor | ⟨front, hattributes⟩
      · exact hpool hdescriptor
      · exact (AttributesAt.ofField start row front).points hattributes hfinal
  | methodCount start passed failure => exact hu16 failure
  | methodHead start passed row failure => exact hpool ((hhead _).holds failure hfinal)
  | methodBody start passed row front failure =>
    rcases Member.fault_of_decodeBody front failure with hdescriptor | ⟨front, hattributes⟩
    · exact hpool hdescriptor
    · exact (AttributesAt.ofMethod start passed row front).points hattributes hfinal
  | attributes start passed passedToo failure =>
    exact (AttributesAt.ofClass start passed passedToo).points failure hfinal

/-- Bytes that are no class file are refused for a fault that points at them. -/
theorem points_of_parse {failure : ScanFailure} (h : parse unit bytes = .error failure) :
    Points unit bytes failure.fault := by
  cases hasks : endOfData? failure.fault with
  | none => exact ((parse_eq_error_iff failure).mp h).2.points hasks
  | some missing =>
    have hfault := (ClassFault.endOfData?_eq_some_iff failure.fault missing).mp hasks
    obtain ⟨hoffset, hone, -⟩ := parse_append_of_truncated h hfault
    rw [hfault]
    exact .truncated hoffset hone

end ClassFile

/-! ### Class files and code -/

/-- What a fault says about the bytes is so. For bytes that are no class file, with offsets that
count from their start however deep the fault lies: a wrong magic word, a version that is not read
and a tag of the constant pool are those of the file, a truncated file lacks bytes at an offset in
it, and a fault of an attribute is about a record that stands in the file with its payload, and lies
in that payload. For a code that does not decode, the fault is about the bytes behind the
instructions that do, and in a code of fewer than `2 ^ 32` bytes its offset is a number of 32 bits,
as diagnostics carry it. -/
theorem faults_point_at_bytes :
    (∀ unit bytes failure, ClassFile.parse unit bytes = .error failure →
      ClassFile.Points unit bytes failure.fault) ∧
    ∀ code fault, Instruction.decodeAll code = .error fault → fault.PointsInto code ∧
      (code.length < 2 ^ 32 → fault.offset.toUInt32.toNat = fault.offset) := by
  constructor
  · intro unit bytes failure h
    exact ClassFile.points_of_parse h
  · intro code fault h
    have hpoints := Instruction.pointsInto_of_decodeAll h
    refine ⟨hpoints, fun hsmall ↦ ?_⟩
    exact UInt32.toNat_ofNat_of_lt' (Nat.lt_trans hpoints.offset_lt hsmall)

/-- The bytes of a class whose only method has a stack map with a type that has no tag, nine, as
the last byte. -/
def strayType : List UInt8 :=
  [0xCA, 0xFE, 0xBA, 0xBE, 0x00, 0x00, 0x00, 0x34, 0x00, 0x05, 0x01, 0x00, 0x01, 0x41, 0x07, 0x00,
    0x01, 0x01, 0x00, 0x04, 0x43, 0x6F, 0x64, 0x65, 0x01, 0x00, 0x0D, 0x53, 0x74, 0x61, 0x63, 0x6B,
    0x4D, 0x61, 0x70, 0x54, 0x61, 0x62, 0x6C, 0x65, 0x00, 0x21, 0x00, 0x02, 0x00, 0x00, 0x00, 0x00,
    0x00, 0x00, 0x00, 0x01, 0x00, 0x01, 0x00, 0x01, 0x00, 0x01, 0x00, 0x01, 0x00, 0x03, 0x00, 0x00,
    0x00, 0x17, 0x00, 0x01, 0x00, 0x01, 0x00, 0x00, 0x00, 0x01, 0xB1, 0x00, 0x00, 0x00, 0x01, 0x00,
    0x04, 0x00, 0x00, 0x00, 0x04, 0x00, 0x01, 0x40, 0x09]

theorem points_strayType :
    ClassFile.parse "A.class" strayType =
        .error ⟨"A.class", some "A", some "A", .record (.invalidTag "StackMapTable" 88 9)⟩ ∧
      ClassFile.Points "A.class" strayType (.record (.invalidTag "StackMapTable" 88 9)) ∧
      Instruction.decodeAll [0x00, 0xFE] = .error ⟨1, .unknownOpcode 0xFE⟩ ∧
        InstructionFault.PointsInto [0x00, 0xFE] ⟨1, .unknownOpcode 0xFE⟩ ∧
          Nat.toUInt32 1 = 1 := by
  obtain ⟨hclass, hcode⟩ := faults_point_at_bytes
  have hparse : ClassFile.parse "A.class" strayType =
      .error ⟨"A.class", some "A", some "A", .record (.invalidTag "StackMapTable" 88 9)⟩ :=
    ClassFile.parse_eq_error_of_map (by decide +kernel)
  have hdecode : Instruction.decodeAll [0x00, 0xFE] = .error ⟨1, .unknownOpcode 0xFE⟩ := by
    decide +kernel
  obtain ⟨hpoints, hoffset⟩ := hcode _ _ hdecode
  exact ⟨hparse, hclass _ _ _ hparse, hdecode, hpoints, UInt32.toNat.inj (hoffset (by decide))⟩

end MonitorAudit
