import MonitorAudit.Proofs.Bytes.Faults
import MonitorAudit.Proofs.ClassFile.Reach

/-!
# Faults inside a payload and what becomes of them

What goes wrong in a payload is about bytes of the payload: a tag is refused with the offset at
which it stands, an element value that is nested too deep with the offset at which it starts, and a
read past the end lacks at least one byte (`PayloadFault.inside`). The payloads of all known kinds
are read that way (`AttributeKind.faultsIn_decode`).

The record around the payload names the fault. `AttributeHeader.Explains` says which faults it makes
of one in its payload: besides those just named, that the declared length is not the one that is
used. A record inside a body of code has a name of its own, and its fault is passed on as it is.
-/

set_option autoImplicit false

namespace MonitorAudit

open Decoder (FaultsIn)

/-! ### Faults and the bytes of a payload -/

/-- The fault is about bytes from the cursor on, or one of those that are known already. -/
def PayloadFault.LiesIn (Known : ClassFault → Prop) (cursor : Cursor) : PayloadFault → Prop
  | .endOfData failure => 1 ≤ failure.wanted
  | .invalidTag tag offset => cursor.HasByte offset tag
  | .tooDeep offset => cursor.position ≤ offset ∧ offset ≤ cursor.stop
  | .other fault => Known fault

/-- The kind of fault that is about bytes from a cursor on. -/
def PayloadFault.inside (Known : ClassFault → Prop) : FaultKind PayloadFault where
  Holds := LiesIn Known
  of_isShort := by
    rintro cursor count fault ⟨hcount, rfl⟩
    exact Nat.sub_pos_of_lt hcount
  of_advance := by
    intro cursor count fault hcount h
    cases fault with
    | endOfData failure => exact h
    | invalidTag tag offset => exact Cursor.HasByte.of_advance h
    | tooDeep offset =>
      obtain ⟨hoffset, hstop⟩ := h
      rw [Cursor.stop_advance hcount] at hstop
      exact ⟨Nat.le_of_add_right_le hoffset, hstop⟩
    | other fault => exact h

open PayloadFault (inside)

variable {Known : ClassFault → Prop}

/-- What begins with a tag may refuse it, where it stands. -/
theorem PayloadFault.faultsIn_tagged {α : Type} {next : Nat → UInt8 → Decoder PayloadFault α}
    (h : ∀ start tag, (next start tag).FaultsIn (inside Known) ∨
      next start tag = Decoder.fail (.invalidTag tag start)) :
    FaultsIn (do
      let start ← Decoder.position
      let tag ← Decoder.u8
      next start tag) (inside Known) := by
  refine .tagged fun start tag ↦ (h start tag).imp_right fun hfail ↦ ⟨_, hfail, fun rest ↦ ?_⟩
  exact Cursor.hasByte_cons tag rest start

/-! ### Payloads of known kinds -/

theorem AnnotationEntry.faultsIn_decodeWith {inner : Decoder PayloadFault ElementValue}
    (h : inner.FaultsIn (inside Known)) : FaultsIn (decodeWith inner) (inside Known) :=
  .bind .u16 fun _ ↦ .map (.counted16 (.bind .u16 fun _ ↦ h.map _)) _

/-- A value that is nested too deep is refused where it starts. -/
theorem ElementValue.faultsIn_decode (levels : Nat) : FaultsIn (decode levels) (inside Known) := by
  induction levels with
  | zero =>
    refine ⟨Decoder.Advances.position.bind fun _ ↦ (Decoder.Reads.fail _).advances, ?_⟩
    intro cursor fault hfault
    obtain rfl : .tooDeep cursor.position = fault := Except.error.inj hfault
    exact ⟨Nat.le_refl _, Nat.le_add_right _ _⟩
  | succ levels ih =>
    refine PayloadFault.faultsIn_tagged fun start tag ↦ ?_
    cases ElementForm.ofTag? tag with
    | none => exact .inr rfl
    | some form =>
      left
      cases form with
      | const | classRef => exact .map .u16 _
      | enum => exact .bind .u16 fun _ ↦ .map .u16 _
      | nested => exact .map (AnnotationEntry.faultsIn_decodeWith ih) _
      | array => exact .map (.counted16 ih) _

theorem AnnotationEntry.faultsIn_decode : FaultsIn decode (inside Known) :=
  faultsIn_decodeWith (ElementValue.faultsIn_decode maxElementLevels)

theorem TargetForm.faultsIn_decode (form : TargetForm) : FaultsIn form.decode (inside Known) := by
  cases form with
  | empty => exact .pure _
  | typeParameter | formalParameter => exact .map .u8 _
  | typeParameterBound => exact .bind .u8 fun _ ↦ .map .u8 _
  | typeArgument => exact .bind .u16 fun _ ↦ .map .u8 _
  | localVariable =>
    exact .map (.counted16 (.bind .u16 fun _ ↦ .bind .u16 fun _ ↦ .map .u16 _)) _
  | _ => exact .map .u16 _

theorem TypeAnnotationEntry.faultsIn_decode : FaultsIn decode (inside Known) := by
  refine PayloadFault.faultsIn_tagged fun start targetType ↦ ?_
  cases TargetForm.ofType? targetType with
  | none => exact .inr rfl
  | some form =>
    refine .inl (form.faultsIn_decode.bind fun target ↦ .bind (?path : FaultsIn _ _) fun path ↦
      AnnotationEntry.faultsIn_decode.map _)
    case path => exact .counted8 (.bind .u8 fun _ ↦ .map .u8 _)

theorem VerificationType.faultsIn_decode : FaultsIn decode (inside Known) := by
  refine PayloadFault.faultsIn_tagged fun start tag ↦ ?_
  split
  case h_8 | h_9 => exact .inl (.map .u16 _)
  case h_10 => exact .inr rfl
  all_goals exact .inl (.pure _)

theorem StackMapFrame.faultsIn_decode : FaultsIn decode (inside Known) := by
  have htype : VerificationType.decode.FaultsIn (inside Known) := VerificationType.faultsIn_decode
  have htypes : (Decoder.counted16 VerificationType.decode).FaultsIn (inside Known) :=
    .counted16 htype
  refine PayloadFault.faultsIn_tagged fun start number ↦ ?_
  split
  · exact .inl (.pure _)
  split
  · exact .inl (htype.map _)
  split
  · exact .inr rfl
  · exact .inl <|
      .ite (.bind .u16 fun _ ↦ htype.map _) <|
      .ite (.map .u16 _) <|
      .ite (.map .u16 _) <|
      .ite (.bind .u16 fun _ ↦ (htype.times _).map _) <|
      .bind .u16 fun _ ↦ htypes.bind fun _ ↦ htypes.map _

theorem LineNumber.faultsIn_decode : FaultsIn decode (inside Known) :=
  .bind .u16 fun _ ↦ .map .u16 _

theorem LocalVariable.faultsIn_decode : FaultsIn decode (inside Known) :=
  .bind .u16 fun _ ↦ .bind .u16 fun _ ↦ .bind .u16 fun _ ↦ .bind .u16 fun _ ↦ .map .u16 _

theorem InnerClass.faultsIn_decode : FaultsIn decode (inside Known) :=
  .bind .u16 fun _ ↦ .bind .u16 fun _ ↦ .bind .u16 fun _ ↦ .map .u16 _

theorem BootstrapMethod.faultsIn_decode : FaultsIn decode (inside Known) :=
  .bind .u16 fun _ ↦ .map (.counted16 .u16) _

theorem MethodParameter.faultsIn_decode : FaultsIn decode (inside Known) :=
  .bind .u16 fun _ ↦ .map .u16 _

theorem ExceptionHandler.faultsIn_decode : FaultsIn decode (inside Known) :=
  .bind .u16 fun _ ↦ .bind .u16 fun _ ↦ .bind .u16 fun _ ↦ .map .u16 _

theorem AttributeKind.faultsIn_decode (kind : AttributeKind) :
    FaultsIn kind.decode (inside Known) := by
  cases kind with
  | deprecated | synthetic => exact .pure _
  | constantValue | signature | sourceFile => exact .map .u16 _
  | enclosingMethod => exact .bind .u16 fun _ ↦ .map .u16 _
  | lineNumberTable => exact .map (.counted16 LineNumber.faultsIn_decode) _
  | localVariableTable | localVariableTypeTable =>
    exact .map (.counted16 LocalVariable.faultsIn_decode) _
  | exceptions => exact .map (.counted16 .u16) _
  | innerClasses => exact .map (.counted16 InnerClass.faultsIn_decode) _
  | bootstrapMethods => exact .map (.counted16 BootstrapMethod.faultsIn_decode) _
  | methodParameters => exact .map (.counted8 MethodParameter.faultsIn_decode) _
  | annotations visible => exact .map (.counted16 AnnotationEntry.faultsIn_decode) _
  | parameterAnnotations visible =>
    exact .map (.counted8 (.counted16 AnnotationEntry.faultsIn_decode)) _
  | typeAnnotations visible => exact .map (.counted16 TypeAnnotationEntry.faultsIn_decode) _
  | annotationDefault => exact .map (ElementValue.faultsIn_decode maxElementLevels) _
  | stackMapTable => exact .map (.counted16 StackMapFrame.faultsIn_decode) _

/-- In front of its attributes a body of code can only be too short. -/
theorem Code.faultsIn_decodeFront : FaultsIn decodeFront (inside Known) :=
  .bind .u16 fun _ ↦ .bind .u16 fun _ ↦ .bind .u32 fun length ↦ .bind (.take length.toNat) fun _ ↦
    .map (.counted16 ExceptionHandler.faultsIn_decode) _

/-! ### The fault of a record -/

/-- The fault that a record makes of one in its payload: the declared length is not the one that is
used, or the fault is about bytes of the payload. -/
inductive AttributeHeader.Explains (header : AttributeHeader) (payload : Cursor) : ClassFault → Prop
  | sizeMismatch {consumed : Nat} (ne_length : consumed ≠ header.length.toNat) :
      Explains header payload
        (.record (.sizeMismatch header.name header.offset header.length consumed))
  | invalidTag {offset : Nat} {tag : UInt8} (byte : payload.HasByte offset tag) :
      Explains header payload (.record (.invalidTag header.name offset tag))
  | tooDeep {offset : Nat} (le_offset : payload.position ≤ offset)
      (offset_le : offset ≤ payload.stop) :
      Explains header payload (.record (.tooDeep header.name offset maxElementLevels))

/-- A payload that is refused is so for a fault about its bytes, or for one that is passed on. -/
theorem AttributeHeader.explains_of_interpret {header : AttributeHeader}
    {layout : Decoder PayloadFault Attribute} (hlayout : layout.FaultsIn (inside Known))
    {payload : Cursor} (hlength : payload.remaining = header.length.toNat) {fault : ClassFault}
    (h : header.interpret layout payload = .error fault) :
    header.Explains payload fault ∨ Known fault ∧ layout.FailsWith payload (.other fault) := by
  rw [interpret] at h
  split at h
  · rename_i inner left hinner
    have hfails : layout.FailsWith payload inner := Decoder.failsWith_iff.mpr ⟨left, hinner⟩
    have hlies : inner.LiesIn Known payload := hlayout.holds hfails
    obtain rfl := Except.error.inj h
    cases inner with
    | endOfData failure =>
      refine .inl (.sizeMismatch ?_)
      have hwanted : 1 ≤ failure.wanted := hlies
      omega
    | invalidTag tag offset => exact .inl (.invalidTag hlies)
    | tooDeep offset => exact .inl (.tooDeep hlies.1 hlies.2)
    | other fault => exact .inr ⟨hlies, hfails⟩
  · rename_i value left hvalue
    split at h
    · simp at h
    · rename_i hleft
      obtain rfl := Except.error.inj h
      -- Bytes are left over, so fewer of them are used than there are.
      obtain ⟨count, hcount, rfl⟩ := hlayout.advances _ _ _ hvalue
      refine .inl (.sizeMismatch fun hconsumed ↦ hleft ?_)
      have hall : payload.rest.length ≤ count := by
        rw [Cursor.advance, Nat.add_sub_cancel_left] at hconsumed
        rw [← Cursor.remaining, hlength]
        exact Nat.le_of_eq hconsumed.symm
      rw [Cursor.isEmpty, Cursor.advance, List.drop_eq_nil_of_le hall]
      rfl

/-- What goes wrong with the record at a cursor: bytes of it are not there, its name is not there,
it is a body where there must be none, or its payload is refused, a body for a fault with a
name. -/
inductive RecordFault (pool : ConstantPool) (body? : Option (Decoder PayloadFault Code))
    (site : Cursor) : ClassFault → Prop
  | short {cursor : Cursor} {count : Nat} {fault : ClassFault}
      (isShort : Decoder.IsShort cursor count fault) : RecordFault pool body? site fault
  | unnamed (found : PoolFault) : RecordFault pool body? site (.pool found)
  | misplaced {header : AttributeHeader} {behind : Cursor}
      (front : AttributeHeader.decode pool site = (.ok header, behind))
      (named : header.name = Code.attributeName) (no_body : body? = none) :
      RecordFault pool body? site
        (.record (.misplaced header.name header.offset Code.attributeName))
  | payload {header : AttributeHeader} {behind payload left : Cursor} {fault : ClassFault}
      (front : AttributeHeader.decode pool site = (.ok header, behind))
      (delimited : (Decoder.window header.length.toNat : Decoder ClassFault Cursor) behind =
        (.ok payload, left))
      (explains : header.Explains payload fault) : RecordFault pool body? site fault
  | body {header : AttributeHeader} {behind payload left : Cursor}
      {body : Decoder PayloadFault Code} {fault : ClassFault}
      (front : AttributeHeader.decode pool site = (.ok header, behind))
      (named : header.name = Code.attributeName) (some_body : body? = some body)
      (delimited : (Decoder.window header.length.toNat : Decoder ClassFault Cursor) behind =
        (.ok payload, left))
      (failure : body.FailsWith payload (.other fault)) : RecordFault pool body? site fault

/-- A payload that is read by a layout is too short, or it is refused. -/
theorem failsWith_decodeDelimited {header : AttributeHeader}
    {layout : Decoder PayloadFault Attribute} {behind : Cursor} {fault : ClassFault}
    (h : (decodeDelimited header layout).FailsWith behind fault) :
    Decoder.IsShort behind header.length.toNat fault ∨
      ∃ payload left, (Decoder.window header.length.toNat : Decoder ClassFault Cursor) behind =
        (.ok payload, left) ∧ header.interpret layout payload = .error fault := by
  rcases Decoder.failsWith_bind_iff.mp h with hshort | ⟨payload, left, hpayload, hrest⟩
  · exact .inl (Decoder.failsWith_window_iff.mp hshort)
  · refine .inr ⟨payload, left, hpayload, ?_⟩
    cases hresult : header.interpret layout payload with
    | ok value => simp [hresult] at hrest
    | error found =>
      simp only [hresult] at hrest
      split at hrest
      · simp at hrest
      · rw [Decoder.failsWith_fail_iff.mp hrest]

/-- The length of a payload that is split off is the declared one. -/
theorem Decoder.remaining_of_window {behind payload left : Cursor} {count : Nat}
    (h : (Decoder.window count : Decoder ClassFault Cursor) behind = (.ok payload, left)) :
    payload.remaining = count := by
  obtain ⟨hcount, rfl, -⟩ := Decoder.window_eq_ok_iff.mp h
  exact List.length_take_of_le hcount

/-- The front of a record fails if it is not there or if it names nothing. -/
theorem AttributeHeader.recordFault_of_decode {pool : ConstantPool}
    {body? : Option (Decoder PayloadFault Code)} {site : Cursor} {fault : ClassFault}
    (h : (decode pool).FailsWith site fault) : RecordFault pool body? site fault := by
  rcases Decoder.failsWith_bind_iff.mp h with hnever | ⟨offset, start, -, h⟩
  · simp at hnever
  rcases Decoder.failsWith_bind_iff.mp h with hshort | ⟨nameIndex, between, -, h⟩
  · exact .short (Decoder.failsWith_u16_iff.mp hshort)
  rcases Decoder.failsWith_bind_iff.mp h with hshort | ⟨length, behind, -, h⟩
  · exact .short (Decoder.failsWith_u32_iff.mp hshort)
  have hname := (Decoder.failsWith_bind_iff.mp h).resolve_right (by simp)
  cases hfound : pool.utf8? nameIndex with
  | ok name => simp [hfound, Except.mapError] at hname
  | error found =>
    obtain rfl : .pool found = fault := by simpa [hfound, Except.mapError] using hname
    exact .unnamed found

/-- A record that is not read has a fault. -/
theorem recordFault_of_failsWith {pool : ConstantPool}
    {body? : Option (Decoder PayloadFault Code)}
    (hbody : ∀ body ∈ body?, body.FaultsIn (inside Known)) {site : Cursor} {fault : ClassFault}
    (h : (decodeRecord pool body?).FailsWith site fault) : RecordFault pool body? site fault := by
  rcases Decoder.failsWith_bind_iff.mp h with hfront | ⟨header, behind, hfront, h⟩
  · exact AttributeHeader.recordFault_of_decode hfront
  have hknown {layout : Decoder PayloadFault Attribute}
      (hlayout : layout.FaultsIn (inside fun _ ↦ False))
      (h : (decodeDelimited header layout).FailsWith behind fault) :
      RecordFault pool body? site fault := by
    rcases failsWith_decodeDelimited h with hshort | ⟨payload, left, hpayload, hrefused⟩
    · exact .short hshort
    · have hexplains := header.explains_of_interpret hlayout
        (Decoder.remaining_of_window hpayload) hrefused
      exact .payload hfront hpayload (hexplains.resolve_right fun h ↦ h.1)
  split at h
  · rename_i hcode
    cases body? with
    | none =>
      obtain rfl := Decoder.failsWith_fail_iff.mp h
      exact .misplaced hfront hcode rfl
    | some body =>
      rcases failsWith_decodeDelimited h with hshort | ⟨payload, left, hpayload, hrefused⟩
      · exact .short hshort
      · rcases header.explains_of_interpret ((hbody body rfl).map Attribute.code)
          (Decoder.remaining_of_window hpayload) hrefused with hexplains | ⟨-, hother⟩
        · exact .payload hfront hpayload hexplains
        · exact .body hfront hcode rfl hpayload (Decoder.failsWith_map_iff.mp hother)
  · split at h
    · exact hknown (AttributeKind.faultsIn_decode _) h
    · exact hknown (.map .takeRest _) h

end MonitorAudit
