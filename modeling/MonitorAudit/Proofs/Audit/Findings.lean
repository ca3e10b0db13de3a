import MonitorAudit.Proofs.Audit.Log
import MonitorAudit.Proofs.ClassFile.Bodies

/-!
# The findings of a class

`Member.findings` are the findings that a method should have: the method itself if it is declared
synchronized, and a block for each instruction of its bodies that enters a monitor. The instructions
of a body are those that decode (`Code.listing`), so a byte of an operand is never taken for one.
-/

set_option autoImplicit false

namespace MonitorAudit

open Audit (foundAt failureAt? blockAt)

/-! ### What a method should report -/

/-- The instructions of a body. A body that does not decode has none. -/
def Code.listing (body : Code) : List Instruction :=
  match Instruction.decodeAll body.bytes with
  | .ok instructions => instructions
  | .error _ => []

/-- The instructions of a body that enter a monitor, in the order of the code. -/
def Code.monitorEntries (body : Code) : List Instruction :=
  body.listing.filter fun instruction ↦ instruction.opcode = 0xC2

/-- The line of an offset by the first line table of a body, or else the offset. -/
def Code.siteAt (body : Code) (offset : Nat) : Site :=
  match body.lineNumberTable? with
  | some table =>
    match table.lineFor? offset with
    | some line => .line line
    | none => .offset offset
  | none => .offset offset

/-- The blocks that a body opens. -/
def Code.blocks (className methodName : String) (body : Code) : List Finding :=
  body.monitorEntries.map fun entry ↦
    .synchronizedBlock className methodName (body.siteAt entry.offset)

/-- The findings of a method of the class named. -/
def Member.findings (className : String) (method : Member) : List Finding :=
  (if method.accessFlags &&& 0x0020 ≠ 0 then [.synchronizedMethod className method.name] else []) ++
    method.bodies.flatMap (Code.blocks className method.name)

/-- The failure of a body that does not decode, in the method named. -/
def Code.failure? (classFile : ClassFile) (methodName? : Option String) (body : Code) :
    Option ScanFailure :=
  match Instruction.decodeAll body.bytes with
  | .ok _ => none
  | .error fault => some ⟨classFile.unit, some classFile.name, methodName?, .instruction fault⟩

/-- The blocks that an audit reports inside a body are those of the body. -/
theorem flatMap_blockAt_eq_blocks {body : Code} (context : Context)
    (hcode : context.code? = some body) :
    body.listing.flatMap (blockAt context) =
      body.blocks context.classFile.name ((context.method?.map (·.name)).getD "") := by
  have hsite (offset : Nat) : Audit.siteOf context offset = body.siteAt offset := by
    unfold Audit.siteOf Code.siteAt Context.lineFor?
    simp only [hcode, Option.bind_eq_bind, Option.bind_some]
    cases body.lineNumberTable? <;> rfl
  rw [Code.blocks, Code.monitorEntries]
  induction body.listing with
  | nil => rfl
  | cons instruction instructions ih =>
    rw [List.flatMap_cons, ih, blockAt]
    by_cases henters : instruction.opcode = Opcode.monitorEnter
    · have hentry : instruction.opcode = 0xC2 := henters
      simp [hentry, hsite, Opcode.monitorEnter]
    · have hentry : instruction.opcode ≠ 0xC2 := henters
      simp [hentry, Opcode.monitorEnter]

/-- An attribute that is no body reports nothing and does not fail. -/
theorem quiet_of_ne_code {value : Attribute} (h : ∀ body, value ≠ .code body) (wants : Bool)
    (context : Context) :
    ∀ step ∈ value.steps wants context, foundAt step = [] ∧ failureAt? step = none := by
  intro step hstep
  obtain ⟨record, hevent, -⟩ := Attribute.exists_event_eq_record h
  rw [Attribute.steps_of_ne_code h, List.mem_singleton, hevent] at hstep
  rw [hstep]
  exact ⟨rfl, rfl⟩

/-- Attributes none of which is a body report nothing and do not fail. -/
theorem quiet_of_bodiesOf_eq_nil {attributes : List Attribute}
    (h : Attribute.bodiesOf attributes = []) (wants : Bool) (context : Context) :
    ∀ step ∈ attributes.flatMap (Attribute.steps wants context),
      foundAt step = [] ∧ failureAt? step = none := by
  intro step hstep
  obtain ⟨value, hvalue, hstep⟩ := List.mem_flatMap.mp hstep
  have hcode : ∀ body, value ≠ .code body := by
    rintro body rfl
    rw [← Attribute.mem_bodiesOf, h] at hvalue
    simp at hvalue
  exact quiet_of_ne_code hcode wants context step hstep

/-- What the steps of a body report is what the body should report. -/
theorem flatMap_foundAt_steps_code {body : Code} (h : Attribute.bodiesOf body.attributes = [])
    (context : Context) :
    ((Attribute.code body).steps false context).flatMap foundAt =
      body.blocks context.classFile.name ((context.method?.map (·.name)).getD "") := by
  have hquiet := quiet_of_bodiesOf_eq_nil h false { context with code? := some body }
  have hinside : (body.attributes.flatMap
      (Attribute.steps false { context with code? := some body })).flatMap foundAt = [] :=
    List.flatMap_eq_nil_iff.mpr fun step hstep ↦ (hquiet step hstep).1
  have hbody : foundAt ⟨{ context with code? := some body }, .ok (.code body)⟩ =
      body.blocks context.classFile.name ((context.method?.map (·.name)).getD "") := by
    rw [← flatMap_blockAt_eq_blocks { context with code? := some body } rfl, Code.listing,
      Audit.foundAt_code]
    cases Instruction.decodeAll body.bytes <;> rfl
  rw [Attribute.steps, Code.steps_eq, List.flatMap_cons, List.flatMap_append, hinside, hbody]
  simp

/-- The steps of a body fail where the body does not decode. -/
theorem findSome?_failureAt_steps_code {body : Code} (h : Attribute.bodiesOf body.attributes = [])
    (context : Context) :
    ((Attribute.code body).steps false context).findSome? failureAt? =
      body.failure? context.classFile (context.method?.map (·.name)) := by
  have hquiet := quiet_of_bodiesOf_eq_nil h false { context with code? := some body }
  have hinside : (body.attributes.flatMap
      (Attribute.steps false { context with code? := some body })).findSome? failureAt? = none :=
    List.findSome?_eq_none_iff.mpr fun step hstep ↦ (hquiet step hstep).2
  have hbody : failureAt? ⟨{ context with code? := some body }, .ok (.code body)⟩ =
      body.failure? context.classFile (context.method?.map (·.name)) := by
    rw [Audit.failureAt?_code, Code.failure?]
    cases Instruction.decodeAll body.bytes <;> rfl
  rw [Attribute.steps, Code.steps_eq, List.findSome?_cons, List.findSome?_append, hinside, hbody]
  cases body.failure? context.classFile (context.method?.map (·.name)) <;> rfl

/-- What the steps of attributes report is what their bodies should report. -/
theorem flatMap_foundAt_stepsOfAll {attributes : List Attribute}
    (h : Attribute.AreFlat attributes) (context : Context) :
    (Attribute.stepsOfAll false context attributes).flatMap foundAt =
      (Attribute.bodiesOf attributes).flatMap
        (Code.blocks context.classFile.name ((context.method?.map (·.name)).getD "")) := by
  induction attributes with
  | nil => rfl
  | cons value values ih =>
    have hvalues : Attribute.AreFlat values := h.of_cons
    rw [Attribute.stepsOfAll, List.flatMap_append, ih hvalues]
    cases hbody : value.body? with
    | some body =>
      obtain rfl := (Attribute.body?_eq_some_iff value body).mp hbody
      rw [flatMap_foundAt_steps_code (h.bodiesOf_eq_nil List.mem_cons_self),
        Attribute.bodiesOf_cons_code, List.flatMap_cons]
    | none =>
      have hquiet := quiet_of_ne_code (Attribute.ne_code_of_body?_eq_none hbody) false context
      have hvalue : (value.steps false context).flatMap foundAt = [] :=
        List.flatMap_eq_nil_iff.mpr fun step hstep ↦ (hquiet step hstep).1
      rw [hvalue, List.nil_append, Attribute.bodiesOf_cons_of_none hbody]

/-- The steps of attributes fail where their bodies do not decode. -/
theorem findSome?_failureAt_stepsOfAll {attributes : List Attribute}
    (h : Attribute.AreFlat attributes) (context : Context) :
    (Attribute.stepsOfAll false context attributes).findSome? failureAt? =
      (Attribute.bodiesOf attributes).findSome?
        (Code.failure? context.classFile (context.method?.map (·.name))) := by
  induction attributes with
  | nil => rfl
  | cons value values ih =>
    have hvalues : Attribute.AreFlat values := h.of_cons
    rw [Attribute.stepsOfAll, List.findSome?_append, ih hvalues]
    cases hbody : value.body? with
    | some body =>
      obtain rfl := (Attribute.body?_eq_some_iff value body).mp hbody
      rw [findSome?_failureAt_steps_code (h.bodiesOf_eq_nil List.mem_cons_self),
        Attribute.bodiesOf_cons_code, List.findSome?_cons]
      cases body.failure? context.classFile (context.method?.map (·.name)) <;> rfl
    | none =>
      have hquiet := quiet_of_ne_code (Attribute.ne_code_of_body?_eq_none hbody) false context
      have hvalue : (value.steps false context).findSome? failureAt? = none :=
        List.findSome?_eq_none_iff.mpr fun step hstep ↦ (hquiet step hstep).2
      rw [hvalue, Option.none_or, Attribute.bodiesOf_cons_of_none hbody]

/-! ### What the steps of a class report -/

namespace ClassFile

/-- The blocks of the bodies that hang off a field or off the class bear an empty method name. -/
def strayBlocks (classFile : ClassFile) (bodies : List Code) : List Finding :=
  bodies.flatMap (Code.blocks classFile.name "")

/-- The failure of the first body that does not decode, in the order of a traversal. -/
def firstFailure? (classFile : ClassFile) : Option ScanFailure :=
  ((classFile.fields.flatMap Member.bodies).findSome? (Code.failure? classFile none)).or
    ((classFile.methods.findSome? fun method ↦
      method.bodies.findSome? (Code.failure? classFile (some method.name))).or
        ((Attribute.bodiesOf classFile.attributes).findSome? (Code.failure? classFile none)))

end ClassFile

/-- The first answer among lists one behind the other is that of the first list that has one. -/
theorem findSome?_flatMap {α β γ : Type} (f : β → Option γ) (g : α → List β) (values : List α) :
    (values.flatMap g).findSome? f = values.findSome? fun value ↦ (g value).findSome? f := by
  induction values with
  | nil => rfl
  | cons value values ih =>
    rw [List.flatMap_cons, List.findSome?_append, ih, List.findSome?_cons]
    cases (g value).findSome? f <;> rfl

/-- Questions that agree on the values of a list have the same first answer. -/
theorem findSome?_congr {α β : Type} {f g : α → Option β} {values : List α}
    (h : ∀ value ∈ values, f value = g value) : values.findSome? f = values.findSome? g := by
  induction values with
  | nil => rfl
  | cons value values ih =>
    rw [List.findSome?_cons, List.findSome?_cons, h value List.mem_cons_self,
      ih fun later hlater ↦ h later (List.mem_cons_of_mem value hlater)]

section Steps

variable {classFile : ClassFile} (hflat : classFile.IsFlat)

include hflat

theorem flatMap_foundAt_stepsOfField (field : Member) (hfield : field ∈ classFile.fields) :
    (field.stepsOfField false (.ofClass classFile)).flatMap foundAt =
      classFile.strayBlocks field.bodies := by
  rw [Member.stepsOfField, List.flatMap_cons,
    flatMap_foundAt_stepsOfAll (hflat.fields field hfield)]
  rfl

theorem flatMap_foundAt_stepsOfMethod (method : Member) (hmethod : method ∈ classFile.methods) :
    (method.stepsOfMethod false (.ofClass classFile)).flatMap foundAt =
      method.findings classFile.name := by
  have hhead : foundAt ⟨{ Context.ofClass classFile with method? := some method },
      .ok (.method method)⟩ = if method.accessFlags &&& 0x0020 ≠ 0 then
        [.synchronizedMethod classFile.name method.name] else [] := by
    show (if decide (method.accessFlags &&& 0x0020 ≠ 0) = true then _ else _) = _
    by_cases hflag : method.accessFlags &&& 0x0020 = 0
    · simp [hflag]
    · simp [hflag, Context.ofClass]
  rw [Member.stepsOfMethod, List.flatMap_cons, hhead,
    flatMap_foundAt_stepsOfAll (hflat.methods method hmethod)]
  rfl

/-- The steps of a class report the findings of its methods, and between those of its fields and of
its own attributes whatever hangs there. -/
theorem flatMap_foundAt_steps :
    (classFile.steps false).flatMap foundAt =
      classFile.strayBlocks (classFile.fields.flatMap Member.bodies) ++
        (classFile.methods.flatMap (Member.findings classFile.name) ++
          classFile.strayBlocks (Attribute.bodiesOf classFile.attributes)) := by
  have hfields : (classFile.fields.flatMap
      (Member.stepsOfField false (.ofClass classFile))).flatMap foundAt =
        classFile.strayBlocks (classFile.fields.flatMap Member.bodies) := by
    rw [ClassFile.strayBlocks, List.flatMap_assoc, List.flatMap_assoc]
    exact List.flatMap_congr (flatMap_foundAt_stepsOfField hflat)
  have hmethods : (classFile.methods.flatMap
      (Member.stepsOfMethod false (.ofClass classFile))).flatMap foundAt =
        classFile.methods.flatMap (Member.findings classFile.name) := by
    rw [List.flatMap_assoc]
    exact List.flatMap_congr (flatMap_foundAt_stepsOfMethod hflat)
  rw [ClassFile.steps, List.flatMap_cons, List.flatMap_append, List.flatMap_append, hfields,
    hmethods, flatMap_foundAt_stepsOfAll hflat.attributes]
  rfl

/-- The steps of a class fail where the first of its bodies does not decode. -/
theorem findSome?_failureAt_steps :
    (classFile.steps false).findSome? failureAt? = classFile.firstFailure? := by
  have hfield : ∀ field ∈ classFile.fields,
      (field.stepsOfField false (.ofClass classFile)).findSome? failureAt? =
        field.bodies.findSome? (Code.failure? classFile none) := by
    intro field hfield
    rw [Member.stepsOfField, List.findSome?_cons,
      findSome?_failureAt_stepsOfAll (hflat.fields field hfield)]
    rfl
  have hmethod : ∀ method ∈ classFile.methods,
      (method.stepsOfMethod false (.ofClass classFile)).findSome? failureAt? =
        method.bodies.findSome? (Code.failure? classFile (some method.name)) := by
    intro method hmethod
    rw [Member.stepsOfMethod, List.findSome?_cons,
      findSome?_failureAt_stepsOfAll (hflat.methods method hmethod)]
    rfl
  rw [ClassFile.steps, List.findSome?_cons, List.findSome?_append, List.findSome?_append,
    findSome?_flatMap, findSome?_flatMap, findSome?_failureAt_stepsOfAll hflat.attributes,
    findSome?_congr hfield, findSome?_congr hmethod, ClassFile.firstFailure?, findSome?_flatMap]
  rfl

end Steps

/-! ### The audit of a class file -/

namespace Audit

section Parsed

variable {unit : String} {bytes : List UInt8} {classFile : ClassFile}
  (hparse : ClassFile.parse unit bytes = .ok classFile)

include hparse

/-- Where every body decodes, the audit answers what the methods should report and what the stray
bodies add to it. -/
theorem auditBytes_of_firstFailure?_eq_none (h : classFile.firstFailure? = none) :
    auditBytes unit bytes = .ok
      (classFile.strayBlocks (classFile.fields.flatMap Member.bodies) ++
        (classFile.methods.flatMap (Member.findings classFile.name) ++
          classFile.strayBlocks (Attribute.bodiesOf classFile.attributes))) := by
  have hflat : classFile.IsFlat := ClassFile.isFlat_of_parse hparse
  rw [← findSome?_failureAt_steps hflat] at h
  rw [auditBytes_of_none hparse h, flatMap_foundAt_steps hflat]

/-- The audit ends with the failure of the first body that does not decode. -/
theorem auditBytes_of_firstFailure?_eq_some {failure : ScanFailure}
    (h : classFile.firstFailure? = some failure) : auditBytes unit bytes = .error failure := by
  rw [← findSome?_failureAt_steps (ClassFile.isFlat_of_parse hparse)] at h
  exact auditBytes_of_some hparse h

end Parsed

/-- Bodies have no blocks exactly if none of them enters a monitor. -/
theorem strayBlocks_eq_nil_iff (classFile : ClassFile) (bodies : List Code) :
    classFile.strayBlocks bodies = [] ↔ ∀ body ∈ bodies, body.monitorEntries = [] := by
  simp [ClassFile.strayBlocks, Code.blocks]

/-- A finding of a method bears the name of the method. -/
theorem methodName_of_mem_findings {className methodName : String} {method : Member} {site : Site}
    (h : .synchronizedBlock className methodName site ∈ method.findings className) :
    methodName = method.name := by
  rcases List.mem_append.mp h with hdeclared | hblock
  · split at hdeclared <;> simp at hdeclared
  · obtain ⟨body, -, hentry⟩ := List.mem_flatMap.mp hblock
    obtain ⟨entry, -, hfinding⟩ := List.mem_map.mp hentry
    cases hfinding
    rfl

/-- A stray body that enters a monitor has a block that belongs to no method with a name. -/
theorem exists_stray_block {classFile : ClassFile}
    (hnames : ∀ method ∈ classFile.methods, method.name ≠ "") {body : Code}
    (hbody : body ∈ classFile.strayBodies) (hentries : body.monitorEntries ≠ []) :
    ∃ finding ∈ classFile.strayBlocks classFile.strayBodies,
      ∀ method ∈ classFile.methods, finding ∉ method.findings classFile.name := by
  obtain ⟨entry, hentry⟩ := List.exists_mem_of_ne_nil _ hentries
  refine ⟨.synchronizedBlock classFile.name "" (body.siteAt entry.offset), ?_, ?_⟩
  · exact List.mem_flatMap.mpr ⟨body, hbody, List.mem_map.mpr ⟨entry, hentry, rfl⟩⟩
  · intro method hmethod hfinding
    exact hnames method hmethod (methodName_of_mem_findings hfinding).symm

/-- What an audit without a failure answers. -/
theorem findings_eq_of_auditBytes {unit : String} {bytes : List UInt8} {classFile : ClassFile}
    {findings : List Finding} (hparse : ClassFile.parse unit bytes = .ok classFile)
    (haudit : auditBytes unit bytes = .ok findings) :
    findings = classFile.strayBlocks (classFile.fields.flatMap Member.bodies) ++
      (classFile.methods.flatMap (Member.findings classFile.name) ++
        classFile.strayBlocks (Attribute.bodiesOf classFile.attributes)) := by
  cases hfirst : classFile.firstFailure? with
  | none =>
    rw [auditBytes_of_firstFailure?_eq_none hparse hfirst] at haudit
    exact (Except.ok.inj haudit).symm
  | some failure =>
    rw [auditBytes_of_firstFailure?_eq_some hparse hfirst] at haudit
    cases haudit

/-- The findings of a class file that is audited without a failure are those of its methods, with
those of the stray bodies of its fields in front of them and those of its own stray bodies behind.
They are the findings of its methods alone exactly if no stray body enters a monitor; where no
method has an empty name, each of them belongs to a method exactly under that condition. -/
theorem findings_belong_iff_of_auditBytes {unit : String} {bytes : List UInt8}
    {classFile : ClassFile} {findings : List Finding}
    (hparse : ClassFile.parse unit bytes = .ok classFile)
    (haudit : auditBytes unit bytes = .ok findings) :
    findings = classFile.strayBlocks (classFile.fields.flatMap Member.bodies) ++
      (classFile.methods.flatMap (Member.findings classFile.name) ++
        classFile.strayBlocks (Attribute.bodiesOf classFile.attributes)) ∧
    (findings = classFile.methods.flatMap (Member.findings classFile.name) ↔
      ∀ body ∈ classFile.strayBodies, body.monitorEntries = []) ∧
    ((∀ method ∈ classFile.methods, method.name ≠ "") →
      ((∀ finding ∈ findings, ∃ method ∈ classFile.methods,
          finding ∈ method.findings classFile.name) ↔
        ∀ body ∈ classFile.strayBodies, body.monitorEntries = [])) := by
  have hfindings := findings_eq_of_auditBytes hparse haudit
  have hstray : (∀ body ∈ classFile.strayBodies, body.monitorEntries = []) ↔
      classFile.strayBlocks (classFile.fields.flatMap Member.bodies) = [] ∧
        classFile.strayBlocks (Attribute.bodiesOf classFile.attributes) = [] := by
    rw [strayBlocks_eq_nil_iff, strayBlocks_eq_nil_iff, ClassFile.strayBodies,
      List.forall_mem_append]
  have hexact : findings = classFile.methods.flatMap (Member.findings classFile.name) ↔
      ∀ body ∈ classFile.strayBodies, body.monitorEntries = [] := by
    rw [hstray, hfindings]
    constructor
    · intro hequal
      have hlength := congrArg List.length hequal
      simp only [List.length_append] at hlength
      constructor <;> apply List.eq_nil_of_length_eq_zero <;> omega
    · rintro ⟨hfields, hclass⟩
      rw [hfields, hclass, List.nil_append, List.append_nil]
  refine ⟨hfindings, hexact, fun hnames ↦ ⟨?_, ?_⟩⟩
  · intro hbelong body hbody
    by_contra hentries
    obtain ⟨finding, hfinding, hnone⟩ := exists_stray_block hnames hbody hentries
    have hmem : finding ∈ findings := by
      rw [ClassFile.strayBodies, ClassFile.strayBlocks, List.flatMap_append] at hfinding
      rw [hfindings, List.mem_append, List.mem_append]
      exact (List.mem_append.mp hfinding).imp_right .inr
    obtain ⟨method, hmethod, hbelongs⟩ := hbelong finding hmem
    exact hnone method hmethod hbelongs
  · intro hnone finding hfinding
    rw [hexact.mpr hnone] at hfinding
    obtain ⟨method, hmethod, hbelongs⟩ := List.mem_flatMap.mp hfinding
    exact ⟨method, hmethod, hbelongs⟩

/-- The bytes of a class without methods off which a body hangs that enters a monitor. -/
def strayClass : List UInt8 :=
  [0xCA, 0xFE, 0xBA, 0xBE, 0x00, 0x00, 0x00, 0x34, 0x00, 0x04, 0x01, 0x00, 0x01, 0x41, 0x07, 0x00,
    0x01, 0x01, 0x00, 0x04, 0x43, 0x6F, 0x64, 0x65, 0x00, 0x21, 0x00, 0x02, 0x00, 0x00, 0x00, 0x00,
    0x00, 0x00, 0x00, 0x00, 0x00, 0x01, 0x00, 0x03, 0x00, 0x00, 0x00, 0x0F, 0x00, 0x01, 0x00, 0x00,
    0x00, 0x00, 0x00, 0x03, 0xC2, 0xC3, 0xB1, 0x00, 0x00, 0x00, 0x00]

theorem auditBytes_strayClass :
    ∃ classFile, ClassFile.parse "A.class" strayClass = .ok classFile ∧ classFile.methods = [] ∧
      auditBytes "A.class" strayClass = .ok [.synchronizedBlock "A" "" (.offset 0)] ∧
      ¬ ∀ body ∈ classFile.strayBodies, body.monitorEntries = [] := by
  have hchecks : (match ClassFile.parse "A.class" strayClass with
      | .ok classFile => classFile.methods.isEmpty
      | .error _ => false) = true := by decide +kernel
  have hvalue : (auditBytes "A.class" strayClass).toOption =
      some [.synchronizedBlock "A" "" (.offset 0)] := by
    decide +kernel
  cases hparse : ClassFile.parse "A.class" strayClass with
  | error failure => simp [hparse] at hchecks
  | ok classFile =>
    rw [hparse] at hchecks
    have hmethods : classFile.methods = [] := List.isEmpty_iff.mp hchecks
    cases haudit : auditBytes "A.class" strayClass with
    | error failure => simp [haudit, Except.toOption] at hvalue
    | ok findings =>
      rw [haudit] at hvalue
      obtain rfl := Option.some.inj hvalue
      have hexact := (findings_belong_iff_of_auditBytes hparse haudit).2.1
      refine ⟨classFile, rfl, hmethods, rfl, fun hnone ↦ ?_⟩
      have hnothing := hexact.mpr hnone
      rw [hmethods] at hnothing
      simp at hnothing

end Audit

end MonitorAudit
