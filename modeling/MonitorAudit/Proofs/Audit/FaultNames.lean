import MonitorAudit.Proofs.Audit.Findings
import MonitorAudit.Proofs.ClassFile.Diagnosis

/-!
# The names that a fault gives

A fault of an attribute gives the name of its record. A record of a name without a structure is kept
as it is and cannot go wrong, so the names in faults are those of the format
(`ClassFault.NamesKnown`), whatever texts the constant pool holds: `ClassFile.namesKnown_of_parse`,
and `Audit.namesKnown_of_auditBytes` for audits, which else fail in instructions only.
-/

set_option autoImplicit false

namespace MonitorAudit

open Decoder (FaultsIn)
open PayloadFault (inside)

/-- The names that a fault of a record gives. -/
def AttributeFault.names : AttributeFault → List String
  | sizeMismatch name _ _ _ | invalidTag name _ _ | tooDeep name _ _ => [name]
  | misplaced name _ parent => [name, parent]

/-- The names that a fault gives. Only those of attributes are taken from the file. -/
def ClassFault.names : ClassFault → List String
  | record fault => fault.names
  | malformed _ | pool _ | instruction _ => []

/-- The name of an attribute whose payload has a structure. -/
def Attribute.IsKnownName (name : String) : Prop :=
  name = Code.attributeName ∨ ∃ kind : AttributeKind, kind.name = name

/-- All names that the fault gives are those of known attributes. -/
def ClassFault.NamesKnown (fault : ClassFault) : Prop :=
  ∀ name ∈ fault.names, Attribute.IsKnownName name

/-- The kind of fault that gives known names only. -/
def ClassFault.namesKnown : FaultKind ClassFault where
  Holds _ fault := fault.NamesKnown
  of_isShort := by
    rintro cursor count fault ⟨-, rfl⟩
    exact List.forall_mem_nil _
  of_advance _ h := h

/-! ### Records -/

theorem AttributeHeader.isKnownName_of_not_isUnread {header : AttributeHeader}
    (h : ¬ header.IsUnread) : Attribute.IsKnownName header.name := by
  by_cases hcode : header.name = Code.attributeName
  · exact .inl hcode
  · cases hkind : AttributeKind.ofName? header.name with
    | none => exact absurd (.inr ⟨hcode, hkind⟩) h
    | some kind => exact .inr ⟨kind, AttributeKind.name_of_ofName? hkind⟩

/-- What a record makes of a fault in its payload gives the name of the record. -/
theorem AttributeHeader.Explains.names_eq {header : AttributeHeader} {payload : Cursor}
    {fault : ClassFault} (h : header.Explains payload fault) : fault.names = [header.name] := by
  cases h <;> rfl

section Records

variable {pool : ConstantPool} {body? : Option (Decoder PayloadFault Code)} {site : Cursor}
  {fault : ClassFault}

/-- A record whose payload is there and which is refused has a known name. -/
theorem isKnownName_of_failsWith {header : AttributeHeader} {behind payload left : Cursor}
    (front : AttributeHeader.decode pool site = (.ok header, behind))
    (delimited : (Decoder.window header.length.toNat : Decoder ClassFault Cursor) behind =
      (.ok payload, left))
    (failure : (decodeRecord pool body?).FailsWith site fault) :
    Attribute.IsKnownName header.name := by
  refine header.isKnownName_of_not_isUnread fun hunread ↦ ?_
  have hpayload := (Decoder.window_eq_ok_iff.mp delimited).1
  obtain ⟨value, hvalue, -, -⟩ := decodeRecord_of_isUnread body? hunread front hpayload
  exact Decoder.not_failsWith_of_ok hvalue fault failure

/-- The fault of a record gives known names, if the faults that a body passes on do. -/
theorem namesKnown_of_decodeRecord {Known : ClassFault → Prop}
    (hbody : ∀ body ∈ body?, body.FaultsIn (inside Known))
    (hpassed : ∀ body ∈ body?, ∀ payload found, body.FailsWith payload (.other found) →
      found.NamesKnown)
    (failure : (decodeRecord pool body?).FailsWith site fault) : fault.NamesKnown := by
  have hcode : Attribute.IsKnownName Code.attributeName := .inl rfl
  cases recordFault_of_failsWith hbody failure with
  | short hshort => exact ClassFault.namesKnown.of_isShort hshort
  | unnamed found => exact List.forall_mem_nil _
  | misplaced front named =>
    rw [named]
    exact List.forall_mem_cons.mpr ⟨hcode, List.forall_mem_singleton.mpr hcode⟩
  | payload front delimited explains =>
    rw [ClassFault.NamesKnown, explains.names_eq, List.forall_mem_singleton]
    exact isKnownName_of_failsWith front delimited failure
  | body front named some_body delimited inner => exact hpassed _ some_body _ _ inner

end Records

/-- A fault that a body passes on is that of a record inside it. -/
theorem Code.namesKnown_of_failsWith {pool : ConstantPool} {payload : Cursor} {fault : ClassFault}
    (h : (decode pool).FailsWith payload (.other fault)) : fault.NamesKnown := by
  obtain ⟨-, -, site, -, -, hsite⟩ := exists_row_of_failsWith h
  have hnone : ∀ body ∈ (none : Option (Decoder PayloadFault Code)),
      body.FaultsIn (inside fun _ ↦ False) := by simp
  exact namesKnown_of_decodeRecord hnone (by simp) hsite

theorem Attribute.faultsIn_decode (pool : ConstantPool) :
    (decode pool).FaultsIn ClassFault.namesKnown := by
  refine ⟨(reads_decode pool).advances, fun failure ↦ ?_⟩
  refine namesKnown_of_decodeRecord (by simpa using Code.faultsIn_decode pool) ?_ failure
  intro body hbody payload found hfound
  obtain rfl := Option.some.inj hbody
  exact Code.namesKnown_of_failsWith hfound

theorem Attribute.faultsIn_decodeTable (pool : ConstantPool) :
    (decodeTable pool).FaultsIn ClassFault.namesKnown :=
  .counted16 (faultsIn_decode pool)

/-! ### Classes -/

/-- A fault of the constant pool gives no names. -/
theorem ClassFault.hasPoolFaults_namesKnown : namesKnown.HasPoolFaults :=
  fun _ _ ↦ List.forall_mem_nil _

theorem Member.faultsIn_decodeBody (pool : ConstantPool) (head : Head) :
    (decodeBody pool head).FaultsIn ClassFault.namesKnown :=
  (Decoder.faultsIn_ofPool ClassFault.hasPoolFaults_namesKnown _).bind fun _ ↦
    (Attribute.faultsIn_decodeTable pool).map _

namespace ClassFile

theorem faultsIn_decodeHeader : ClassHeader.decode.FaultsIn ClassFault.namesKnown := by
  have hfail {fault : MalformedClass} :
      (Decoder.fail (.malformed fault) : Decoder ClassFault ClassHeader).FaultsIn
        ClassFault.namesKnown := by
    refine ⟨(Decoder.Reads.fail _).advances, fun h ↦ ?_⟩
    obtain rfl := Decoder.failsWith_fail_iff.mp h
    exact List.forall_mem_nil _
  have hpool : (ConstantPool.decode.mapFault .malformed).FaultsIn ClassFault.namesKnown := by
    refine ⟨ConstantPool.reads_decode.advances.mapFault _, fun h ↦ ?_⟩
    obtain ⟨inner, -, rfl⟩ := Decoder.failsWith_mapFault_iff.mp h
    exact List.forall_mem_nil _
  exact .bind .u32 fun _ ↦ .ite hfail <| .bind .u16 fun _ ↦ .bind .u16 fun _ ↦ .ite hfail <|
    hpool.bind fun _ ↦ .bind .u16 fun _ ↦ .bind .u16 fun _ ↦
      (Decoder.faultsIn_ofPool ClassFault.hasPoolFaults_namesKnown _).map _

theorem FailsAt.namesKnown {unit : String} {bytes : List UInt8}
    {className? methodName? : Option String} {fault : ClassFault}
    (h : FailsAt unit bytes className? methodName? fault) : fault.NamesKnown := by
  have hu16 : (Decoder.u16 : Decoder ClassFault UInt16).FaultsIn ClassFault.namesKnown := .u16
  have hhead (pool : ConstantPool) : (Member.decodeHead pool).FaultsIn ClassFault.namesKnown :=
    Member.faultsIn_decodeHead ClassFault.hasPoolFaults_namesKnown pool
  have hsuper (pool : ConstantPool) : (decodeSuper pool).FaultsIn ClassFault.namesKnown :=
    faultsIn_decodeSuper ClassFault.hasPoolFaults_namesKnown pool
  cases h with
  | front failure => exact faultsIn_decodeHeader.holds failure
  | parent front failure => exact (hsuper _).holds failure
  | interfaces front super failure => exact hu16.counted16.holds failure
  | fieldCount start failure => exact hu16.holds failure
  | @field header fields site _ start row failure =>
    have hfield : (Member.decode header.pool).FaultsIn ClassFault.namesKnown :=
      (hhead _).bind fun head ↦ Member.faultsIn_decodeBody _ head
    exact hfield.holds failure
  | methodCount start passed failure => exact hu16.holds failure
  | methodHead start passed row failure => exact (hhead _).holds failure
  | methodBody start passed row front failure =>
    exact (Member.faultsIn_decodeBody _ _).holds failure
  | attributes start passed passedToo failure =>
    exact (Attribute.faultsIn_decodeTable _).holds failure

/-- Whatever texts the constant pool holds, the fault for which a class file is refused gives no
name that is not that of a known attribute. -/
theorem namesKnown_of_parse {unit : String} {bytes : List UInt8} {failure : ScanFailure}
    (h : parse unit bytes = .error failure) : failure.fault.NamesKnown :=
  ((parse_eq_error_iff failure).mp h).2.namesKnown

end ClassFile

/-! ### Audits -/

/-- A body that does not decode is reported for the unit of its class, with a fault of an
instruction. -/
theorem Code.exists_instruction_of_failure? {classFile : ClassFile} {methodName? : Option String}
    {body : Code} {failure : ScanFailure} (h : body.failure? classFile methodName? = some failure) :
    failure.unit = classFile.unit ∧ ∃ found, failure.fault = .instruction found := by
  unfold failure? at h
  split at h
  · simp at h
  · obtain rfl := Option.some.inj h
    exact ⟨rfl, _, rfl⟩

theorem ClassFile.exists_instruction_of_firstFailure? {classFile : ClassFile}
    {failure : ScanFailure} (h : classFile.firstFailure? = some failure) :
    failure.unit = classFile.unit ∧ ∃ found, failure.fault = .instruction found := by
  rcases Option.or_eq_some_iff.mp h with hfield | ⟨-, h⟩
  · obtain ⟨body, -, hbody⟩ := List.exists_of_findSome?_eq_some hfield
    exact Code.exists_instruction_of_failure? hbody
  rcases Option.or_eq_some_iff.mp h with hmethod | ⟨-, hclass⟩
  · obtain ⟨method, -, hmethod⟩ := List.exists_of_findSome?_eq_some hmethod
    obtain ⟨body, -, hbody⟩ := List.exists_of_findSome?_eq_some hmethod
    exact Code.exists_instruction_of_failure? hbody
  · obtain ⟨body, -, hbody⟩ := List.exists_of_findSome?_eq_some hclass
    exact Code.exists_instruction_of_failure? hbody

/-- An audit fails for the unit that it is given, and its fault gives known names only. -/
theorem Audit.namesKnown_of_auditBytes {unit : String} {bytes : List UInt8} {failure : ScanFailure}
    (h : auditBytes unit bytes = .error failure) :
    failure.unit = unit ∧ failure.fault.NamesKnown := by
  cases hparse : ClassFile.parse unit bytes with
  | error found =>
    rw [auditBytes, hparse] at h
    obtain rfl : found = failure := Except.error.inj h
    exact ⟨((ClassFile.parse_eq_error_iff found).mp hparse).1, ClassFile.namesKnown_of_parse hparse⟩
  | ok classFile =>
    cases hfirst : classFile.firstFailure? with
    | none => simp [auditBytes_of_firstFailure?_eq_none hparse hfirst] at h
    | some found =>
      rw [auditBytes_of_firstFailure?_eq_some hparse hfirst] at h
      obtain rfl : found = failure := Except.error.inj h
      obtain ⟨hunit, instruction, hfault⟩ := ClassFile.exists_instruction_of_firstFailure? hfirst
      rw [ClassFault.NamesKnown, hfault]
      exact ⟨hunit.trans (ClassFile.unit_of_parse hparse), List.forall_mem_nil _⟩

end MonitorAudit
