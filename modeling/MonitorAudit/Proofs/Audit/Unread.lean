import MonitorAudit.Proofs.Audit.Findings
import MonitorAudit.Proofs.ClassFile.Reach

/-!
# What an audit does not look at

Line tables and attributes of no known name have no say in which constructs an audit finds. Whatever
bytes such a payload holds, the audit of a class file ends with the same fault or answers findings
that are of the same kinds in the same classes and methods one by one; and they are the very same
findings unless the payload is a line table inside a body of code
(`Audit.auditBytes_eq_outside_unread`).
-/

set_option autoImplicit false

namespace MonitorAudit

/-- Two findings are of the same kind in the same class and method. -/
inductive Finding.SharesPlace : Finding → Finding → Prop
  | method (className methodName : String) :
      SharesPlace (.synchronizedMethod className methodName)
        (.synchronizedMethod className methodName)
  | block (className methodName : String) (site other : Site) :
      SharesPlace (.synchronizedBlock className methodName site)
        (.synchronizedBlock className methodName other)

/-- Two findings share their place and, if `sites` are kept, are the same. -/
structure Finding.Alike (sites : Prop) (finding other : Finding) : Prop where
  sharesPlace : finding.SharesPlace other
  eq : sites → finding = other

theorem Finding.SharesPlace.refl (finding : Finding) : finding.SharesPlace finding := by
  cases finding with
  | synchronizedMethod className methodName => exact .method className methodName
  | synchronizedBlock className methodName site => exact .block className methodName site site

section Alike

variable {sites : Prop}

theorem Code.Alike.monitorEntries {body other : Code} (h : Code.Alike sites body other) :
    body.monitorEntries = other.monitorEntries := by
  rw [Code.monitorEntries, Code.monitorEntries, Code.listing, Code.listing, h.bytes]

theorem Code.Alike.siteAt {body other : Code} (h : Code.Alike sites body other) (hsites : sites)
    (offset : Nat) : body.siteAt offset = other.siteAt offset := by
  rw [Code.siteAt, Code.siteAt, h.lines hsites]

theorem Code.Alike.blocks {body other : Code} (h : Code.Alike sites body other)
    (className methodName : String) :
    List.Forall₂ (Finding.Alike sites) (body.blocks className methodName)
      (other.blocks className methodName) := by
  rw [Code.blocks, Code.blocks, h.monitorEntries, List.forall₂_map_left_iff,
    List.forall₂_map_right_iff]
  refine List.forall₂_same.mpr fun entry _ ↦ ⟨.block _ _ _ _, fun hsites ↦ ?_⟩
  rw [h.siteAt hsites]

theorem Code.Alike.failure? {body other : Code} (h : Code.Alike sites body other)
    {classFile classFile' : ClassFile} (hclass : ClassFile.Alike sites classFile classFile')
    (methodName? : Option String) :
    body.failure? classFile methodName? = other.failure? classFile' methodName? := by
  rw [Code.failure?, Code.failure?, h.bytes, hclass.unit, hclass.name]

/-- Bodies that are alike open blocks that are alike. -/
theorem forall₂_blocks {bodies others : List Code}
    (h : List.Forall₂ (Code.Alike sites) bodies others) (className methodName : String) :
    List.Forall₂ (Finding.Alike sites) (bodies.flatMap (Code.blocks className methodName))
      (others.flatMap (Code.blocks className methodName)) :=
  List.rel_flatMap h fun _ _ halike ↦ halike.blocks className methodName

theorem Member.Alike.findings {member other : Member} (h : Member.Alike sites member other)
    (className : String) :
    List.Forall₂ (Finding.Alike sites) (member.findings className) (other.findings className) := by
  rw [Member.findings, Member.findings, h.accessFlags, h.name]
  refine List.rel_append ?_ (forall₂_blocks h.bodies className other.name)
  exact List.forall₂_same.mpr fun finding _ ↦ ⟨.refl finding, fun _ ↦ rfl⟩

namespace ClassFile

variable {classFile other : ClassFile}

theorem Alike.firstFailure? (h : Alike sites classFile other) :
    classFile.firstFailure? = other.firstFailure? := by
  have hbodies {methodName? : Option String} {bodies bodies' : List Code}
      (halike : List.Forall₂ (Code.Alike sites) bodies bodies') :
      bodies.findSome? (Code.failure? classFile methodName?) =
        bodies'.findSome? (Code.failure? other methodName?) :=
    findSome?_eq_of_forall₂ (halike.imp fun _ _ hbody ↦ hbody.failure? h methodName?)
  have hfields : List.Forall₂ (Code.Alike sites) (classFile.fields.flatMap Member.bodies)
      (other.fields.flatMap Member.bodies) :=
    List.rel_flatMap h.fields fun _ _ hmember ↦ hmember.bodies
  have hmethods : (classFile.methods.findSome? fun method ↦
      method.bodies.findSome? (Code.failure? classFile (some method.name))) =
        other.methods.findSome? fun method ↦
          method.bodies.findSome? (Code.failure? other (some method.name)) :=
    findSome?_eq_of_forall₂ <| h.methods.imp fun method method' hmember ↦ by
      rw [hmember.name]
      exact hbodies hmember.bodies
  rw [ClassFile.firstFailure?, ClassFile.firstFailure?, hbodies hfields, hmethods, hbodies h.bodies]

/-- Classes that are alike have findings that are alike. -/
theorem Alike.findings (h : Alike sites classFile other) :
    List.Forall₂ (Finding.Alike sites)
      (classFile.strayBlocks (classFile.fields.flatMap Member.bodies) ++
        (classFile.methods.flatMap (Member.findings classFile.name) ++
          classFile.strayBlocks (Attribute.bodiesOf classFile.attributes)))
      (other.strayBlocks (other.fields.flatMap Member.bodies) ++
        (other.methods.flatMap (Member.findings other.name) ++
          other.strayBlocks (Attribute.bodiesOf other.attributes))) := by
  have hfields : List.Forall₂ (Code.Alike sites) (classFile.fields.flatMap Member.bodies)
      (other.fields.flatMap Member.bodies) :=
    List.rel_flatMap h.fields fun _ _ hmember ↦ hmember.bodies
  rw [strayBlocks, strayBlocks, strayBlocks, strayBlocks, h.name]
  refine List.rel_append (forall₂_blocks hfields _ _) (List.rel_append ?_
    (forall₂_blocks h.bodies _ _))
  exact List.rel_flatMap h.methods fun _ _ hmember ↦ hmember.findings other.name

end ClassFile

end Alike

namespace Audit

/-- Units that are read alike are audited alike. -/
theorem auditBytes_alike {sites : Prop} {unit : String} {bytes other : List UInt8}
    (h : Decoder.SameOutcome (ClassFile.Alike sites) (ClassFile.decode unit (.ofBytes bytes))
      (ClassFile.decode unit (.ofBytes other))) :
    (∃ failure, auditBytes unit bytes = .error failure ∧ auditBytes unit other = .error failure) ∨
    ∃ findings others, auditBytes unit bytes = .ok findings ∧ auditBytes unit other = .ok others ∧
      List.Forall₂ (Finding.Alike sites) findings others := by
  generalize hfirst : ClassFile.decode unit (.ofBytes bytes) = outcome at h
  generalize hsecond : ClassFile.decode unit (.ofBytes other) = outcome' at h
  have hparse : ClassFile.parse unit bytes = outcome.1 := congrArg Prod.fst hfirst
  have hparse' : ClassFile.parse unit other = outcome'.1 := congrArg Prod.fst hsecond
  cases h with
  | error failure left =>
    refine .inl ⟨failure, ?_, ?_⟩
    · rw [auditBytes, hparse]
      rfl
    · rw [auditBytes, hparse']
      rfl
  | @ok classFile classFile' halike left =>
    cases hfailure : classFile.firstFailure? with
    | some failure =>
      refine .inl ⟨failure, auditBytes_of_firstFailure?_eq_some hparse hfailure, ?_⟩
      exact auditBytes_of_firstFailure?_eq_some hparse' (halike.firstFailure?.symm.trans hfailure)
    | none =>
      refine .inr ⟨_, _, auditBytes_of_firstFailure?_eq_none hparse hfailure, ?_, halike.findings⟩
      exact auditBytes_of_firstFailure?_eq_none hparse' (halike.firstFailure?.symm.trans hfailure)

/-- Bytes that differ in nothing but the payload of a line table or of an attribute of no known
name, wherever the record hangs to which the reader of the class comes, are audited alike. Either
both audits end with the same fault, or the findings of one are of the same kinds in the same
classes and methods as those of the other, one by one. They are the very same unless the payload is
a line table inside a body. -/
theorem auditBytes_eq_outside_unread {unit : String} {bytes other : List UInt8} {holder : Holder}
    {pool : ConstantPool} {site behind : Cursor} {header : AttributeHeader}
    (hreach : ClassFile.ReachesRecord unit bytes holder pool site)
    (hheader : AttributeHeader.decode pool site = (.ok header, behind))
    (hpayload : header.length.toNat ≤ behind.remaining) (hunread : header.IsUnread)
    (hlength : other.length = bytes.length)
    (hother : ∀ index,
      index < behind.position ∨ behind.position + header.length.toNat ≤ index →
        other[index]? = bytes[index]?) :
    (∃ failure, auditBytes unit bytes = .error failure ∧ auditBytes unit other = .error failure) ∨
    ∃ findings others, auditBytes unit bytes = .ok findings ∧ auditBytes unit other = .ok others ∧
      List.Forall₂ Finding.SharesPlace findings others ∧
      ((holder = .body → header.name ≠ AttributeKind.lineNumberTable.name) →
        findings = others) := by
  have hend : behind.position + header.length.toNat ≤ bytes.length := by
    have hstop := (AttributeHeader.reads_decode pool).looksNoFurther.stop_eq hheader
    have hbytes := hreach.stop_le
    rw [← hstop, Cursor.stop] at hbytes
    omega
  have hcount : ((other.drop behind.position).take header.length.toNat).length =
      header.length.toNat := by
    rw [List.length_take, List.length_drop]
    omega
  have houtcome := hreach.sameOutcome_decode hheader hpayload hunread hcount
  rw [← Cursor.ofBytes_eq_patch hlength hend hother] at houtcome
  rcases auditBytes_alike houtcome with hfailure | ⟨findings, others, hfindings, hothers, halike⟩
  · exact .inl hfailure
  · refine .inr ⟨findings, others, hfindings, hothers, halike.imp fun _ _ h ↦ h.sharesPlace, ?_⟩
    intro hsites
    rw [← List.forall₂_eq_eq_eq]
    exact halike.imp fun _ _ h ↦ h.eq hsites

/-- The bytes of a class with one method whose body enters a monitor in line 7. -/
def linedClass : List UInt8 :=
  [0xCA, 0xFE, 0xBA, 0xBE, 0x00, 0x00, 0x00, 0x34, 0x00, 0x07, 0x01, 0x00, 0x01, 0x41, 0x07, 0x00,
    0x01, 0x01, 0x00, 0x04, 0x43, 0x6F, 0x64, 0x65, 0x01, 0x00, 0x01, 0x6D, 0x01, 0x00, 0x03, 0x28,
    0x29, 0x56, 0x01, 0x00, 0x0F, 0x4C, 0x69, 0x6E, 0x65, 0x4E, 0x75, 0x6D, 0x62, 0x65, 0x72, 0x54,
    0x61, 0x62, 0x6C, 0x65, 0x00, 0x21, 0x00, 0x02, 0x00, 0x00, 0x00, 0x00, 0x00, 0x00, 0x00, 0x01,
    0x00, 0x00, 0x00, 0x04, 0x00, 0x05, 0x00, 0x01, 0x00, 0x03, 0x00, 0x00, 0x00, 0x1B, 0x00, 0x01,
    0x00, 0x00, 0x00, 0x00, 0x00, 0x03, 0xC2, 0xC3, 0xB1, 0x00, 0x00, 0x00, 0x01, 0x00, 0x06, 0x00,
    0x00, 0x00, 0x06, 0x00, 0x01, 0x00, 0x00, 0x00, 0x07, 0x00, 0x00]

/-- The same class with a line table of 65535 rows in one row's place. -/
def garbledClass : List UInt8 :=
  linedClass.take 99 ++ ([0xFF, 0xFF, 0x00, 0x00, 0x00, 0x07] ++ linedClass.drop 105)

theorem reachesRecord_linedClass : ∃ pool site header behind,
    ClassFile.ReachesRecord "A.class" linedClass .body pool site ∧
      AttributeHeader.decode pool site = (.ok header, behind) ∧
      header.length.toNat ≤ behind.remaining ∧
      header.name = AttributeKind.lineNumberTable.name ∧ header.length = 6 ∧
      behind.position = 99 := by
  have hfirst : ClassFile.firstInBody linedClass (fun header behind ↦
      decide (header.length.toNat ≤ behind.remaining) &&
        (header.name == AttributeKind.lineNumberTable.name && (header.length == 6 &&
          behind.position == 99))) = true := by
    decide +kernel
  obtain ⟨pool, site, header, behind, hreach, hheader, htest⟩ :=
    ClassFile.exists_reachesRecord_of_firstInBody "A.class" hfirst
  simp only [Bool.and_eq_true, decide_eq_true_eq, beq_iff_eq] at htest
  exact ⟨pool, site, header, behind, hreach, hheader, htest⟩

/-- The block is found in line 7 by the table, and at its offset by what is no table. -/
theorem auditBytes_linedClass :
    ∃ pool site header behind,
      ClassFile.ReachesRecord "A.class" linedClass .body pool site ∧
      AttributeHeader.decode pool site = (.ok header, behind) ∧
      header.length.toNat ≤ behind.remaining ∧ header.IsUnread ∧
      garbledClass.length = linedClass.length ∧
      (∀ index, index < behind.position ∨ behind.position + header.length.toNat ≤ index →
        garbledClass[index]? = linedClass[index]?) ∧
      ∃ findings others, auditBytes "A.class" linedClass = .ok findings ∧
        auditBytes "A.class" garbledClass = .ok others ∧
        findings = [.synchronizedBlock "A" "m" (.line 7)] ∧
        others = [.synchronizedBlock "A" "m" (.offset 0)] ∧
        List.Forall₂ Finding.SharesPlace findings others := by
  obtain ⟨pool, site, header, behind, hreach, hheader, hpayload, hlines, hlength, hposition⟩ :=
    reachesRecord_linedClass
  have hlined : linedClass.length = 107 := by decide +kernel
  have hgarbled : garbledClass.length = 107 := by decide +kernel
  have hsame : garbledClass.length = linedClass.length := hgarbled.trans hlined.symm
  have hother : ∀ index,
      index < behind.position ∨ behind.position + header.length.toNat ≤ index →
        garbledClass[index]? = linedClass[index]? := by
    have hinside : ∀ index < 107, index < 99 ∨ 105 ≤ index →
        garbledClass[index]? = linedClass[index]? := by decide +kernel
    intro index hindex
    rw [hposition, hlength] at hindex
    by_cases hend : index < 107
    · exact hinside index hend hindex
    · rw [List.getElem?_eq_none (by omega), List.getElem?_eq_none (by omega)]
  have hvalue : (auditBytes "A.class" linedClass).toOption =
      some [.synchronizedBlock "A" "m" (.line 7)] := by decide +kernel
  have hvalue' : (auditBytes "A.class" garbledClass).toOption =
      some [.synchronizedBlock "A" "m" (.offset 0)] := by decide +kernel
  refine ⟨pool, site, header, behind, hreach, hheader, hpayload, .inl hlines, hsame, hother, ?_⟩
  rcases auditBytes_eq_outside_unread hreach hheader hpayload (.inl hlines) hsame hother with
    ⟨failure, hfailure, -⟩ | ⟨findings, others, hfindings, hothers, halike, -⟩
  · simp [hfailure, Except.toOption] at hvalue
  · rw [hfindings] at hvalue
    rw [hothers] at hvalue'
    exact ⟨findings, others, hfindings, hothers, Option.some.inj hvalue, Option.some.inj hvalue',
      halike⟩

end Audit

end MonitorAudit
