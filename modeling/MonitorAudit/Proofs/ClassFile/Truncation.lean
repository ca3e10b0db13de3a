import MonitorAudit.Proofs.ClassFile.PayloadFaults

/-!
# Class files that are cut short

The reader of a class file answers longer input as a reader of a stream would
(`ClassFile.incremental_decode`): only the fault of a truncated file depends on what follows. A
payload that overruns its record is never such a fault, since the record is split off whole before
its payload is looked at.

`ClassFile.parse_settled_unless_truncated` draws the consequences for whole files and for their
beginnings.
-/

set_option autoImplicit false

namespace MonitorAudit

/-! ### Faults of truncated files -/

instance : ToEndOfData MalformedClass where
  endOfData?
    | .truncated offset wanted => some ⟨offset, wanted⟩
    | _ => none

instance : ToEndOfData ClassFault where
  endOfData?
    | .malformed fault => endOfData? fault
    | _ => none

instance : ToEndOfData ScanFailure where
  endOfData? failure := endOfData? failure.fault

instance : LawfulEndOfData MalformedClass := ⟨fun _ ↦ rfl⟩

instance : LawfulEndOfData ClassFault := ⟨fun _ ↦ rfl⟩

theorem ClassFault.endOfData?_eq_some_iff (fault : ClassFault) (failure : EndOfData) :
    endOfData? fault = some failure ↔
      fault = .malformed (.truncated failure.offset failure.wanted) := by
  cases failure
  cases fault with
  | malformed fault => cases fault <;> simp [endOfData?]
  | _ => simp [endOfData?]

open Decoder (Incremental)

/-! ### The constant pool -/

theorem ConstantKind.incremental_decode {ε : Type} [OfEndOfData ε] [ToEndOfData ε]
    [LawfulEndOfData ε] (kind : ConstantKind) : Incremental (kind.decode : Decoder ε Constant) := by
  cases kind with
  | utf8 => exact .bind .u16 fun length ↦ .map (.take length.toNat) _
  | integer => exact .map .i32 _
  | float => exact .map .u32 _
  | long | double => exact .map .u64 _
  | classRef | string | methodType | moduleRef | packageRef => exact .map .u16 _
  | methodHandle => exact .bind .u8 fun _ ↦ .map .u16 _
  | _ => exact .bind .u16 fun _ ↦ .map .u16 _

theorem ConstantPool.incremental_decodeConstant (index : Nat) :
    Incremental (decodeConstant index) := by
  refine .bind .position fun offset ↦ .bind .u8 fun tag ↦ ?_
  cases ConstantKind.ofTag? tag with
  | some kind => exact kind.incremental_decode
  | none => exact .fail rfl

theorem ConstantPool.incremental_decodeConstantsOnto (count index : Nat)
    (constants : List Constant) : Incremental (decodeConstantsOnto count index constants) := by
  induction index, constants using decodeConstantsOnto.induct count with
  | case1 index constants hindex ih =>
    rw [decodeConstantsOnto, if_pos hindex]
    exact .bind (incremental_decodeConstant index) ih
  | case2 index constants hindex =>
    rw [decodeConstantsOnto, if_neg hindex]
    exact .pure _

theorem ConstantPool.incremental_decode : Incremental ConstantPool.decode :=
  .bind .u16 fun count ↦ .map (incremental_decodeConstantsOnto count.toNat 1 []) _

/-! ### Attributes -/

/-- The fault asks for no bytes. -/
def ClassFault.IsFinal (fault : ClassFault) : Prop := endOfData? fault = none

open ClassFault (IsFinal)
open PayloadFault (inside)

theorem AttributeHeader.incremental_decode (pool : ConstantPool) : Incremental (decode pool) :=
  .bind .position fun _ ↦ .bind .u16 fun _ ↦ .bind .u32 fun _ ↦ .map (.mapError fun _ ↦ rfl) _

/-- Once a payload is split off, nothing that goes wrong in it asks for bytes. -/
theorem AttributeHeader.isFinal_of_interpret {header : AttributeHeader}
    {layout : Decoder PayloadFault Attribute} (hlayout : layout.FaultsIn (inside IsFinal))
    {payload : Cursor} {fault : ClassFault}
    (h : header.interpret layout payload = .error fault) : fault.IsFinal := by
  rw [interpret] at h
  split at h
  · rename_i inner left hinner
    have hlies : inner.LiesIn IsFinal payload :=
      hlayout.holds (Decoder.failsWith_iff.mpr ⟨left, hinner⟩)
    obtain rfl := Except.error.inj h
    cases inner with
    | other fault => exact hlies
    | _ => rfl
  · split at h
    · simp at h
    · obtain rfl := Except.error.inj h
      rfl

theorem incremental_decodeDelimited (header : AttributeHeader)
    {layout : Decoder PayloadFault Attribute} (hlayout : layout.FaultsIn (inside IsFinal)) :
    Incremental (decodeDelimited header layout) := by
  refine .bind (.window header.length.toNat) fun payload ↦ ?_
  cases hresult : header.interpret layout payload with
  | ok value => exact .pure value
  | error fault =>
    simp only
    split
    · exact .pure _
    · exact .fail (AttributeHeader.isFinal_of_interpret hlayout hresult)

theorem incremental_decodeRecord (pool : ConstantPool) {body? : Option (Decoder PayloadFault Code)}
    (hbody : ∀ body ∈ body?, body.FaultsIn (inside IsFinal)) :
    Incremental (decodeRecord pool body?) := by
  refine .bind (AttributeHeader.incremental_decode pool) fun header ↦ ?_
  split
  · cases body? with
    | none => exact .fail rfl
    | some body => exact incremental_decodeDelimited header ((hbody body rfl).map _)
  · split
    · exact incremental_decodeDelimited header (AttributeKind.faultsIn_decode _)
    · exact incremental_decodeDelimited header (.map .takeRest _)

/-- A fault that asks for no bytes is passed on out of the payload. -/
theorem PayloadFault.ofClassFault_of_isFinal {fault : ClassFault} (h : fault.IsFinal) :
    ofClassFault fault = .other fault := by
  cases fault with
  | malformed fault =>
    cases fault with
    | truncated offset wanted => simp [IsFinal, endOfData?] at h
    | _ => rfl
  | _ => rfl

/-- A record inside a body that is cut short by the end of the body has overrun the body. -/
theorem Code.faultsIn_decode (pool : ConstantPool) :
    (decode pool).FaultsIn (inside IsFinal) := by
  have hattributes : Incremental (decodeAttributes pool) :=
    .counted16 (incremental_decodeRecord pool (by simp))
  rw [decode_eq]
  refine faultsIn_decodeFront.bind fun front ↦ .map ⟨?_, fun {cursor fault} hfault ↦ ?_⟩ _
  · exact (reads_decodeAttributes pool).advances.mapFault _
  · obtain ⟨inner, hinner, rfl⟩ := Decoder.failsWith_mapFault_iff.mp hfault
    cases hasks : endOfData? inner with
    | none =>
      rw [PayloadFault.ofClassFault_of_isFinal hasks]
      exact hasks
    | some failure =>
      obtain ⟨left, hdecode⟩ := Decoder.failsWith_iff.mp hinner
      obtain ⟨-, hwanted⟩ := hattributes.asks _ _ _ _ hdecode hasks
      rw [(ClassFault.endOfData?_eq_some_iff inner failure).mp hasks]
      exact hwanted

theorem Attribute.incremental_decode (pool : ConstantPool) : Incremental (decode pool) :=
  incremental_decodeRecord pool (by simpa using Code.faultsIn_decode pool)

theorem Attribute.incremental_decodeTable (pool : ConstantPool) :
    Incremental (decodeTable pool) :=
  .counted16 (incremental_decode pool)

/-! ### Classes -/

/-- A use of the constant pool asks for no bytes. -/
theorem Decoder.incremental_ofPool {α : Type} (result : Except PoolFault α) :
    Incremental (Decoder.ofPool result) :=
  .mapError fun _ ↦ rfl

theorem ClassHeader.incremental_decode : Incremental decode := by
  refine .bind .u32 fun found ↦ ?_
  split
  · exact .fail rfl
  · refine .bind .u16 fun minorVersion ↦ .bind .u16 fun majorVersion ↦ ?_
    split
    · exact .fail rfl
    · exact .bind (ConstantPool.incremental_decode.mapFault fun _ ↦ rfl) fun _ ↦
        .bind .u16 fun _ ↦ .bind .u16 fun _ ↦ .map (Decoder.incremental_ofPool _) _

theorem Member.incremental_decodeHead (pool : ConstantPool) : Incremental (decodeHead pool) :=
  .bind .u16 fun _ ↦ .bind .u16 fun _ ↦ .bind .u16 fun _ ↦ .map (Decoder.incremental_ofPool _) _

theorem Member.incremental_decodeBody (pool : ConstantPool) (head : Head) :
    Incremental (decodeBody pool head) :=
  .bind (Decoder.incremental_ofPool _) fun _ ↦ .map (Attribute.incremental_decodeTable pool) _

theorem Member.incremental_decodeField (unit className : String) (pool : ConstantPool) :
    Incremental (decodeField unit className pool) :=
  .mapFault (.bind (incremental_decodeHead pool) fun head ↦ incremental_decodeBody pool head)
    fun _ ↦ rfl

theorem Member.incremental_decodeMethod (unit className : String) (pool : ConstantPool) :
    Incremental (decodeMethod unit className pool) :=
  .bind (.mapFault (incremental_decodeHead pool) fun _ ↦ rfl) fun head ↦
    .mapFault (incremental_decodeBody pool head) fun _ ↦ rfl

theorem ClassFile.incremental_decodeSuper (pool : ConstantPool) :
    Incremental (decodeSuper pool) := by
  refine .bind .u16 fun superClass ↦ ?_
  split
  · exact .pure _
  · exact .map (Decoder.incremental_ofPool _) _

/-- A class file is read as from a stream. -/
theorem ClassFile.incremental_decode (unit : String) : Incremental (decode unit) :=
  .bind (ClassHeader.incremental_decode.mapFault fun _ ↦ rfl) fun header ↦
    .bind ((incremental_decodeSuper header.pool).mapFault fun _ ↦ rfl) fun _ ↦
    .bind (.mapFault (.counted16 .u16) fun _ ↦ rfl) fun _ ↦
    .bind (.mapFault .u16 fun _ ↦ rfl) fun _ ↦
    .bind ((Member.incremental_decodeField unit header.name header.pool).times _) fun _ ↦
    .bind (.mapFault .u16 fun _ ↦ rfl) fun _ ↦
    .bind ((Member.incremental_decodeMethod unit header.name header.pool).times _) fun _ ↦
    .bind ((Attribute.incremental_decodeTable header.pool).mapFault fun _ ↦ rfl) fun _ ↦ .pure _

theorem ScanFailure.endOfData?_eq_some_iff (failure : ScanFailure) (missing : EndOfData) :
    endOfData? failure = some missing ↔
      failure.fault = .malformed (.truncated missing.offset missing.wanted) :=
  ClassFault.endOfData?_eq_some_iff failure.fault missing

namespace ClassFile

theorem exists_decode_of_parse {unit : String} {bytes : List UInt8}
    {result : Except ScanFailure ClassFile} (h : parse unit bytes = result) :
    ∃ left, decode unit (.ofBytes bytes) = (result, left) :=
  ⟨_, Prod.ext h rfl⟩

theorem parse_append_of_ok {unit : String} {bytes : List UInt8} {classFile : ClassFile}
    (h : parse unit bytes = .ok classFile) (more : List UInt8) :
    parse unit (bytes ++ more) = .ok classFile := by
  obtain ⟨left, hdecode⟩ := exists_decode_of_parse h
  exact congrArg Prod.fst (((incremental_decode unit).of_ok _ _ _ hdecode).2 more)

theorem parse_append_of_error {unit : String} {bytes : List UInt8} {failure : ScanFailure}
    (h : parse unit bytes = .error failure)
    (hkind : ∀ offset wanted, failure.fault ≠ .malformed (.truncated offset wanted))
    (more : List UInt8) : parse unit (bytes ++ more) = .error failure := by
  have hquiet : endOfData? failure = none :=
    Option.eq_none_iff_forall_ne_some.mpr fun missing hmissing ↦
      hkind _ _ ((ScanFailure.endOfData?_eq_some_iff failure missing).mp hmissing)
  obtain ⟨left, hdecode⟩ := exists_decode_of_parse h
  exact congrArg Prod.fst ((incremental_decode unit).of_error _ _ _ hdecode hquiet more)

/-- A truncated file is short of at least one byte at an offset that is in it or right behind it,
and fewer bytes than it is said to be short of leave it truncated at the same offset. -/
theorem parse_append_of_truncated {unit : String} {bytes : List UInt8} {failure : ScanFailure}
    {offset wanted : Nat} (h : parse unit bytes = .error failure)
    (hfault : failure.fault = .malformed (.truncated offset wanted)) :
    offset ≤ bytes.length ∧ 1 ≤ wanted ∧
      ∀ more : List UInt8, more.length < wanted →
        ∃ later, parse unit (bytes ++ more) = .error later ∧
          later.fault = .malformed (.truncated offset (wanted - more.length)) := by
  have hmissing : endOfData? failure = some ⟨offset, wanted⟩ :=
    (ScanFailure.endOfData?_eq_some_iff failure ⟨offset, wanted⟩).mpr hfault
  obtain ⟨left, hdecode⟩ := exists_decode_of_parse h
  obtain ⟨hoffset, hone⟩ := (incremental_decode unit).asks _ _ _ _ hdecode hmissing
  refine ⟨by simpa [Cursor.stop, Cursor.ofBytes, Cursor.remaining] using hoffset, hone,
    fun more hmore ↦ ?_⟩
  obtain ⟨later, there, hlater, hstill⟩ :=
    (incremental_decode unit).waits _ _ _ _ hdecode hmissing more hmore
  exact ⟨later, congrArg Prod.fst hlater, (ScanFailure.endOfData?_eq_some_iff later _).mp hstill⟩

/-- The bytes from which a class is read are followed by those that are left, and by themselves they
are used up. -/
theorem exists_used_of_decode {unit : String} {bytes : List UInt8} {classFile : ClassFile}
    {left : Cursor} (h : decode unit (.ofBytes bytes) = (.ok classFile, left)) :
    ∃ used, bytes = used ++ left.rest ∧ used.length = left.position ∧
      decode unit ⟨used, 0⟩ = (.ok classFile, ⟨[], used.length⟩) := by
  obtain ⟨used, hused, hrest, hposition⟩ := (reads_decode unit _ _ _).mp h
  refine ⟨used, hrest, by simpa [Cursor.ofBytes] using hposition.symm, ?_⟩
  have hexact := (reads_decode unit).run 0 hused []
  rwa [List.append_nil, Nat.zero_add] at hexact

/-- Fewer bytes than a class is read from are a truncated file, which is short of no more bytes than
are missing. -/
theorem exists_truncated_of_lt {unit : String} {bytes : List UInt8} {classFile : ClassFile}
    {left : Cursor} (h : decode unit (.ofBytes bytes) = (.ok classFile, left)) {count : Nat}
    (hcount : count < left.position) :
    ∃ failure offset wanted, parse unit (bytes.take count) = .error failure ∧
      failure.fault = .malformed (.truncated offset wanted) ∧
        offset ≤ count ∧ 1 ≤ wanted ∧ count + wanted ≤ left.position := by
  obtain ⟨used, hbytes, hlength, hexact⟩ := exists_used_of_decode h
  rw [← List.take_append_drop count used] at hexact
  have hbehind : used.drop count ≠ [] := by
    rw [Ne, List.drop_eq_nil_iff]
    omega
  obtain ⟨failure, there, missing, hfailure, hmissing, hoffset, hone, hwanted⟩ :=
    (incremental_decode unit).asks_of_append hexact rfl hbehind
  have htake : bytes.take count = used.take count := by
    rw [hbytes, List.take_append_of_le_length (by omega)]
  rw [List.length_take] at hoffset
  rw [List.length_drop] at hwanted
  refine ⟨failure, missing.offset, missing.wanted, ?_,
    (ScanFailure.endOfData?_eq_some_iff failure missing).mp hmissing, by omega, hone, by omega⟩
  rw [htake]
  exact congrArg Prod.fst hfailure

/-- Only the fault of a truncated file can be cured by more bytes: a class and any other fault stay
what they are. And where a class is read from the first bytes of a file, fewer of them are a
truncated file that is short of no more bytes than are missing. -/
theorem parse_settled_unless_truncated (unit : String) (bytes : List UInt8) :
    (∀ classFile, parse unit bytes = .ok classFile →
      ∀ more, parse unit (bytes ++ more) = .ok classFile) ∧
    (∀ failure, parse unit bytes = .error failure →
      (∀ offset wanted, failure.fault ≠ .malformed (.truncated offset wanted)) →
        ∀ more, parse unit (bytes ++ more) = .error failure) ∧
    ∀ classFile left, decode unit (.ofBytes bytes) = (.ok classFile, left) →
      ∀ count < left.position, ∃ failure offset wanted,
        parse unit (bytes.take count) = .error failure ∧
          failure.fault = .malformed (.truncated offset wanted) ∧
            offset ≤ count ∧ 1 ≤ wanted ∧ count + wanted ≤ left.position := by
  refine ⟨?_, ?_, ?_⟩
  · intro classFile h more
    exact parse_append_of_ok h more
  · intro failure h hkind more
    exact parse_append_of_error h hkind more
  · intro classFile left h count hcount
    exact exists_truncated_of_lt h hcount

end ClassFile

end MonitorAudit
