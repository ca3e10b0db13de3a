import MonitorAudit.Proofs.ClassFile.Failure

/-!
# Where the bytes of a class file break off

`ClassFile.Breaks bytes className? methodName?` says in terms of the bytes alone which part of a
class file is the first that is not there, and which names go with it. A part is not there if the
bytes behind the parts in front of it do not begin with the bytes of one (`Lacks`).

`ClassFile.exists_failure_iff_breaks` says that bytes are refused exactly if they break off
somewhere, and that what is reported carries the names that go with the place.
-/

set_option autoImplicit false

namespace MonitorAudit

/-! ### Parts of a class file -/

/-- Which bytes are in front of the descriptor and the attributes of a member. -/
def Member.HeadBytes (pool : ConstantPool) (bytes : List UInt8) (head : Head) : Prop :=
  pool.utf8? head.nameIndex = .ok head.name ∧
    bytes = word16 head.accessFlags ++ (word16 head.nameIndex ++ word16 head.descriptorIndex)

/-- Which bytes are in front of the fields of a class file: its front up to the name of the class,
the superclass and the interfaces. -/
inductive PrefaceBytes : List UInt8 → ClassHeader → Prop
  | intro {headerBytes superBytes interfacesBytes : List UInt8} {header : ClassHeader}
      {parent : UInt16 × Option String} {interfaces : List UInt16}
      (front : HeaderBytes headerBytes header) (super : SuperBytes header.pool superBytes parent)
      (interfacesTable : Table16 (fun row index ↦ row = word16 index) interfacesBytes interfaces) :
      PrefaceBytes (headerBytes ++ (superBytes ++ interfacesBytes)) header

/-- Which bytes are in front of the methods of a class file. -/
inductive MethodsPrefaceBytes : List UInt8 → ClassHeader → Prop
  | intro {preface fieldsBytes : List UInt8} {header : ClassHeader} {fields : List Member}
      (front : PrefaceBytes preface header)
      (fieldsTable : Table16 (MemberBytes header.pool) fieldsBytes fields) :
      MethodsPrefaceBytes (preface ++ fieldsBytes) header

/-- The first part of a class file that is not there, with the name of the class and of the method
that go with it. -/
inductive ClassFile.Breaks (bytes : List UInt8) : Option String → Option String → Prop
  /-- The front, which ends with the name of the class. -/
  | front (lacks : Lacks HeaderBytes bytes) : Breaks bytes none none
  | parent {headerBytes rest : List UInt8} {header : ClassHeader}
      (bytes_eq : bytes = headerBytes ++ rest) (front : HeaderBytes headerBytes header)
      (lacks : Lacks (SuperBytes header.pool) rest) : Breaks bytes (some header.name) none
  | interfaces {headerBytes superBytes rest : List UInt8} {header : ClassHeader}
      {parent : UInt16 × Option String} (bytes_eq : bytes = headerBytes ++ (superBytes ++ rest))
      (front : HeaderBytes headerBytes header) (super : SuperBytes header.pool superBytes parent)
      (lacks : Lacks (Table16 fun row index ↦ row = word16 index) rest) :
      Breaks bytes (some header.name) none
  | fields {preface rest : List UInt8} {header : ClassHeader} (bytes_eq : bytes = preface ++ rest)
      (front : PrefaceBytes preface header)
      (lacks : Lacks (Table16 (MemberBytes header.pool)) rest) :
      Breaks bytes (some header.name) none
  /-- The number of methods. -/
  | methodCount {preface rest : List UInt8} {header : ClassHeader}
      (bytes_eq : bytes = preface ++ rest) (front : MethodsPrefaceBytes preface header)
      (short : rest.length < 2) : Breaks bytes (some header.name) none
  /-- The flags, the slots or the name of a method, behind any number of methods. -/
  | methodHead {preface methodsBytes rest : List UInt8} {header : ClassHeader} {count : UInt16}
      {methods : List Member}
      (bytes_eq : bytes = preface ++ (word16 count ++ (methodsBytes ++ rest)))
      (front : MethodsPrefaceBytes preface header)
      (passed : Rows (MemberBytes header.pool) methodsBytes methods)
      (more : methods.length < count.toNat) (lacks : Lacks (Member.HeadBytes header.pool) rest) :
      Breaks bytes (some header.name) none
  /-- What is behind the name of a method, up to the end of its attributes. -/
  | methodBody {preface methodsBytes headBytes rest : List UInt8} {header : ClassHeader}
      {count : UInt16} {methods : List Member} {head : Member.Head}
      (bytes_eq : bytes = preface ++ (word16 count ++ (methodsBytes ++ (headBytes ++ rest))))
      (front : MethodsPrefaceBytes preface header)
      (passed : Rows (MemberBytes header.pool) methodsBytes methods)
      (more : methods.length < count.toNat) (named : Member.HeadBytes header.pool headBytes head)
      (lacks : Lacks (MemberBytes header.pool) (headBytes ++ rest)) :
      Breaks bytes (some header.name) (some head.name)
  /-- The attributes of the class. -/
  | attributes {preface methodsBytes rest : List UInt8} {header : ClassHeader}
      {methods : List Member} (bytes_eq : bytes = preface ++ (methodsBytes ++ rest))
      (front : MethodsPrefaceBytes preface header)
      (methodsTable : Table16 (MemberBytes header.pool) methodsBytes methods)
      (lacks : Lacks (Table16 (Attribute.decode header.pool).Accepts) rest) :
      Breaks bytes (some header.name) none

open Decoder (Reads)

/-! ### Tables and their rows -/

namespace Decoder

variable {ε α : Type} {row : Decoder ε α} {form : List UInt8 → α → Prop} {table site : Cursor}

/-- The reader of a table comes to a row behind the number of rows and some of the rows. -/
theorem Reads.reachesRow_iff (h : Reads row fun _ ↦ form) :
    row.ReachesRow table site ↔ ∃ count used values, Rows form used values ∧
      values.length < count.toNat ∧ table.rest = word16 count ++ (used ++ site.rest) ∧
        site.position = table.position + (2 + used.length) := by
  constructor
  · rintro ⟨count, start, place, values, hcount, hplace, hrows⟩
    obtain ⟨_, rfl, hrest, hposition⟩ := (Reads.u16 _ _ _).mp hcount
    obtain ⟨used, ⟨hlength, hused⟩, hrest', hposition'⟩ := (h.times place _ _ _).mp hrows
    refine ⟨count, used, values, hused, by omega, by rw [hrest, hrest'], ?_⟩
    rw [hposition', hposition, length_word16]
    omega
  · rintro ⟨count, used, values, hused, hlength, hrest, hposition⟩
    refine ⟨count, ⟨used ++ site.rest, table.position + 2⟩, values.length, values, ?_, hlength, ?_⟩
    · exact (Reads.u16 _ _ _).mpr ⟨_, rfl, hrest, by rw [length_word16]⟩
    · exact (h.times values.length _ _ _).mpr ⟨used, ⟨rfl, hused⟩, rfl, by simp only; omega⟩

/-- The reader of a table passes the number of rows and all of the rows. -/
theorem Reads.passesTable_iff (h : Reads row fun _ ↦ form) :
    row.PassesTable table site ↔ ∃ used values, Table16 form used values ∧
      table.rest = used ++ site.rest ∧ site.position = table.position + used.length := by
  constructor
  · rintro ⟨count, start, values, hcount, hrows⟩
    obtain ⟨_, rfl, hrest, hposition⟩ := (Reads.u16 _ _ _).mp hcount
    obtain ⟨used, ⟨hlength, hused⟩, hrest', hposition'⟩ := (h.times _ _ _ _).mp hrows
    refine ⟨_, values, .intro count hlength hused, ?_, ?_⟩
    · rw [hrest, hrest', List.append_assoc]
    · rw [hposition', hposition, List.length_append, Nat.add_assoc]
  · rintro ⟨_, values, ⟨count, hlength, hused⟩, hrest, hposition⟩
    rename_i used
    rw [List.length_append, length_word16] at hposition
    refine ⟨count, ⟨used ++ site.rest, table.position + 2⟩, values, ?_, ?_⟩
    · exact (Reads.u16 _ _ _).mpr ⟨_, rfl, by rw [hrest, List.append_assoc], by rw [length_word16]⟩
    · exact (h.times _ _ _ _).mpr ⟨used, ⟨hlength, hused⟩, rfl, by simp only; omega⟩

end Decoder

/-! ### From cursors to bytes -/

namespace ClassFile

open Decoder (FailsWith)

variable {unit : String} {bytes : List UInt8} {header : ClassHeader}

/-- The reader comes to the fields behind the bytes in front of them. -/
theorem fieldsAt_iff {table : Cursor} :
    FieldsAt bytes header table ↔ ∃ preface, PrefaceBytes preface header ∧
      bytes = preface ++ table.rest ∧ table.position = preface.length := by
  constructor
  · rintro ⟨hfront, hsuper, htable⟩
    obtain ⟨headerBytes, hheader, hrest, hposition⟩ := (ClassHeader.reads_decode _ _ _).mp hfront
    obtain ⟨superBytes, hparent, hrest', hposition'⟩ := (reads_decodeSuper _ _ _ _).mp hsuper
    obtain ⟨indexBytes, hindex, hrest'', hposition''⟩ := (reads_interfaces _ _ _).mp htable
    refine ⟨_, .intro hheader hparent hindex, ?_, ?_⟩
    · rw [List.append_assoc, List.append_assoc, ← hrest'', ← hrest', ← hrest]
      rfl
    · rw [hposition'', hposition', hposition, List.length_append, List.length_append]
      simp only [Cursor.ofBytes]
      omega
  · rintro ⟨_, ⟨hheader, hparent, hindex⟩, rfl, hposition⟩
    rename_i headerBytes superBytes indexBytes parent interfaces
    rw [List.append_assoc, List.append_assoc]
    rw [List.length_append, List.length_append] at hposition
    have hheader := ClassHeader.reads_decode.run 0 hheader
      (superBytes ++ (indexBytes ++ table.rest))
    have hparent := (reads_decodeSuper _).run (0 + headerBytes.length) hparent
      (indexBytes ++ table.rest)
    refine ⟨hheader, hparent, (reads_interfaces _ _ _).mpr ⟨indexBytes, hindex, rfl, ?_⟩⟩
    rw [hposition, Nat.zero_add, Nat.add_assoc]

/-- The reader comes to the methods behind the bytes in front of them. -/
theorem methodsAt_iff {table : Cursor} :
    (∃ fields, FieldsAt bytes header fields ∧
      (Member.decodeField unit header.name header.pool).PassesTable fields table) ↔
    ∃ preface, MethodsPrefaceBytes preface header ∧
      bytes = preface ++ table.rest ∧ table.position = preface.length := by
  have hfield := Member.reads_decodeField unit header.name header.pool
  constructor
  · rintro ⟨fields, start, passed⟩
    obtain ⟨preface, hpreface, hbytes, hposition⟩ := fieldsAt_iff.mp start
    obtain ⟨used, values, hused, hrest, hposition'⟩ := hfield.passesTable_iff.mp passed
    refine ⟨_, .intro hpreface hused, ?_, ?_⟩
    · rw [hbytes, hrest, List.append_assoc]
    · rw [hposition', hposition, List.length_append]
  · rintro ⟨_, ⟨hpreface, hfields⟩, rfl, hposition⟩
    rename_i preface fieldsBytes fields
    rw [List.length_append] at hposition
    refine ⟨⟨fieldsBytes ++ table.rest, preface.length⟩, ?_, ?_⟩
    · exact fieldsAt_iff.mpr ⟨preface, hpreface, List.append_assoc _ _ _, rfl⟩
    · exact hfield.passesTable_iff.mpr ⟨fieldsBytes, fields, hfields, rfl, hposition⟩

/-- A decoder of fields comes to the same rows whatever its faults are. -/
theorem reachesRow_decode_iff (unit className : String) {pool : ConstantPool}
    {table site : Cursor} :
    (Member.decode pool).ReachesRow table site ↔
      (Member.decodeField unit className pool).ReachesRow table site := by
  rw [(Member.reads_decode pool).reachesRow_iff,
    (Member.reads_decodeField unit className pool).reachesRow_iff]

/-- The fields fail, in their number or in one of them, exactly if their table is lacking. -/
theorem fields_fail_iff_lacks (unit : String) (table : Cursor) :
    (∃ fault, (Decoder.u16 : Decoder ClassFault UInt16).FailsWith table fault ∨
      ∃ site, (Member.decodeField unit header.name header.pool).ReachesRow table site ∧
        (Member.decode header.pool).FailsWith site fault) ↔
      Lacks (Table16 (MemberBytes header.pool)) table.rest := by
  rw [← (Member.reads_decode header.pool).counted16.fails_iff_lacks table]
  simp only [Decoder.failsWith_counted16_iff, reachesRow_decode_iff unit header.name]

/-- A member fails behind its name exactly if its bytes are lacking all the same. -/
theorem decodeBody_fails_iff_lacks {pool : ConstantPool} {head : Member.Head}
    {site behind : Cursor} (hhead : Member.decodeHead pool site = (.ok head, behind)) :
    (∃ fault, (Member.decodeBody pool head).FailsWith behind fault) ↔
      Lacks (MemberBytes pool) site.rest := by
  rw [← (Member.reads_decode pool).fails_iff_lacks site]
  have hbehind (fault : ClassFault) : (Member.decode pool).FailsWith site fault ↔
      (Member.decodeBody pool head).FailsWith behind fault := by
    rw [FailsWith, FailsWith, Member.decode, Decoder.bind_apply, hhead]
  simp only [hbehind]

/-- Two bytes are a number of rows. -/
theorem u16_fails_iff (cursor : Cursor) :
    (∃ fault, (Decoder.u16 : Decoder ClassFault UInt16).FailsWith cursor fault) ↔
      cursor.rest.length < 2 := by
  simp only [Decoder.failsWith_u16_iff, Decoder.IsShort]
  simp [Cursor.remaining]

/-- The reader of the methods comes to a method behind the number of methods and some of them. -/
theorem methodAt_iff {site : Cursor} :
    (∃ fields methods, FieldsAt bytes header fields ∧
      (Member.decodeField unit header.name header.pool).PassesTable fields methods ∧
      (Member.decodeMethod unit header.name header.pool).ReachesRow methods site) ↔
    ∃ preface count used values, MethodsPrefaceBytes preface header ∧
      Rows (MemberBytes header.pool) used values ∧ values.length < count.toNat ∧
        bytes = preface ++ (word16 count ++ (used ++ site.rest)) ∧
          site.position = preface.length + (2 + used.length) := by
  have hmethod := Member.reads_decodeMethod unit header.name header.pool
  constructor
  · rintro ⟨fields, methods, start, passed, row⟩
    obtain ⟨preface, hpreface, hbytes, hposition⟩ :=
      methodsAt_iff.mp ⟨fields, start, passed⟩
    obtain ⟨count, used, values, hused, hmore, hrest, hposition'⟩ := hmethod.reachesRow_iff.mp row
    exact ⟨preface, count, used, values, hpreface, hused, hmore, by rw [hbytes, hrest],
      by rw [hposition', hposition]⟩
  · rintro ⟨preface, count, used, values, hpreface, hused, hmore, hbytes, hposition⟩
    let methods : Cursor := ⟨word16 count ++ (used ++ site.rest), preface.length⟩
    obtain ⟨fields, start, passed⟩ :=
      methodsAt_iff.mpr ⟨preface, hpreface, hbytes, (rfl : methods.position = preface.length)⟩
    exact ⟨fields, methods, start, passed,
      hmethod.reachesRow_iff.mpr ⟨count, used, values, hused, hmore, rfl, hposition⟩⟩

/-- The reader fails in the part in which the bytes break off. -/
theorem FailsAt.breaks {className? methodName? : Option String} {fault : ClassFault}
    (h : FailsAt unit bytes className? methodName? fault) :
    Breaks bytes className? methodName? := by
  cases h with
  | front failure =>
    exact .front ((ClassHeader.reads_decode.fails_iff_lacks _).mp ⟨fault, failure⟩)
  | @parent header first _ front failure =>
    obtain ⟨used, hused, hrest, -⟩ := (ClassHeader.reads_decode _ _ _).mp front
    exact .parent hrest hused
      (((reads_decodeSuper header.pool).fails_iff_lacks _).mp ⟨fault, failure⟩)
  | interfaces front super failure =>
    obtain ⟨used, hused, hrest, -⟩ := (ClassHeader.reads_decode _ _ _).mp front
    obtain ⟨slot, hslot, hrest', -⟩ := (reads_decodeSuper _ _ _ _).mp super
    exact .interfaces (hrest.trans (by rw [hrest'])) hused hslot
      ((reads_interfaces.fails_iff_lacks _).mp ⟨fault, failure⟩)
  | fieldCount start failure =>
    obtain ⟨preface, hpreface, hbytes, -⟩ := fieldsAt_iff.mp start
    exact .fields hbytes hpreface ((fields_fail_iff_lacks unit _).mp ⟨fault, .inl failure⟩)
  | field start row failure =>
    obtain ⟨preface, hpreface, hbytes, -⟩ := fieldsAt_iff.mp start
    exact .fields hbytes hpreface
      ((fields_fail_iff_lacks unit _).mp ⟨fault, .inr ⟨_, row, failure⟩⟩)
  | methodCount start passed failure =>
    obtain ⟨preface, hpreface, hbytes, -⟩ := methodsAt_iff.mp ⟨_, start, passed⟩
    exact .methodCount hbytes hpreface ((u16_fails_iff _).mp ⟨fault, failure⟩)
  | methodHead start passed row failure =>
    obtain ⟨preface, count, used, values, hpreface, hused, hmore, hbytes, -⟩ :=
      methodAt_iff.mp ⟨_, _, start, passed, row⟩
    exact .methodHead hbytes hpreface hused hmore
      (((Member.reads_decodeHead _).fails_iff_lacks _).mp ⟨fault, failure⟩)
  | methodBody start passed row front failure =>
    obtain ⟨preface, count, used, values, hpreface, hused, hmore, hbytes, -⟩ :=
      methodAt_iff.mp ⟨_, _, start, passed, row⟩
    obtain ⟨headBytes, hnamed, hrest, -⟩ := (Member.reads_decodeHead _ _ _ _).mp front
    have hlacks := (decodeBody_fails_iff_lacks front).mp ⟨fault, failure⟩
    rw [hrest] at hbytes hlacks
    exact .methodBody hbytes hpreface hused hmore hnamed hlacks
  | attributes start passed passedToo failure =>
    obtain ⟨preface, hpreface, hbytes, -⟩ := methodsAt_iff.mp ⟨_, start, passed⟩
    obtain ⟨used, values, hused, hrest, -⟩ :=
      (Member.reads_decodeMethod _ _ _).passesTable_iff.mp passedToo
    exact .attributes (hbytes.trans (by rw [hrest])) hpreface hused
      (((Attribute.reads_decodeTable _).fails_iff_lacks _).mp ⟨fault, failure⟩)

/-- Where the bytes break off, the reader fails. -/
theorem Breaks.exists_failsAt {className? methodName? : Option String}
    (h : Breaks bytes className? methodName?) (unit : String) :
    ∃ fault, FailsAt unit bytes className? methodName? fault := by
  cases h with
  | front lacks =>
    obtain ⟨fault, hfault⟩ := ClassHeader.reads_decode.exists_failsWith lacks 0
    exact ⟨fault, .front hfault⟩
  | @parent headerBytes rest header bytes_eq front lacks =>
    have hfront := ClassHeader.reads_decode.run 0 front rest
    rw [← bytes_eq] at hfront
    obtain ⟨fault, hfault⟩ :=
      (reads_decodeSuper header.pool).exists_failsWith lacks (0 + headerBytes.length)
    exact ⟨fault, .parent hfront hfault⟩
  | @interfaces headerBytes superBytes rest header parent bytes_eq front super lacks =>
    have hfront := ClassHeader.reads_decode.run 0 front (superBytes ++ rest)
    rw [← bytes_eq] at hfront
    have hsuper := (reads_decodeSuper header.pool).run (0 + headerBytes.length) super rest
    obtain ⟨fault, hfault⟩ := reads_interfaces.exists_failsWith lacks
      (0 + headerBytes.length + superBytes.length)
    exact ⟨fault, .interfaces hfront hsuper hfault⟩
  | @fields preface rest header bytes_eq front lacks =>
    have start : FieldsAt bytes header ⟨rest, preface.length⟩ :=
      fieldsAt_iff.mpr ⟨preface, front, bytes_eq, rfl⟩
    obtain ⟨fault, hcount | ⟨site, row, hsite⟩⟩ :=
      (fields_fail_iff_lacks unit ⟨rest, preface.length⟩).mpr lacks
    · exact ⟨fault, .fieldCount start hcount⟩
    · exact ⟨fault, .field start row hsite⟩
  | @methodCount preface rest header bytes_eq front short =>
    let methods : Cursor := ⟨rest, preface.length⟩
    obtain ⟨fields, start, passed⟩ :=
      methodsAt_iff.mpr ⟨preface, front, bytes_eq, (rfl : methods.position = preface.length)⟩
    obtain ⟨fault, hfault⟩ := (u16_fails_iff methods).mpr short
    exact ⟨fault, .methodCount start passed hfault⟩
  | @methodHead preface used rest header count values bytes_eq front passed more lacks =>
    let site : Cursor := ⟨rest, preface.length + (2 + used.length)⟩
    obtain ⟨fields, methods, start, passed, row⟩ :=
      methodAt_iff.mpr ⟨preface, count, used, values, front, passed, more, bytes_eq,
        (rfl : site.position = _)⟩
    obtain ⟨fault, hfault⟩ :=
      (Member.reads_decodeHead header.pool).exists_failsWith lacks site.position
    exact ⟨fault, .methodHead start passed row hfault⟩
  | @methodBody preface used headBytes rest header count values head bytes_eq front passed more
      named lacks =>
    let site : Cursor := ⟨headBytes ++ rest, preface.length + (2 + used.length)⟩
    obtain ⟨fields, methods, start, passed, row⟩ :=
      methodAt_iff.mpr ⟨preface, count, used, values, front, passed, more, bytes_eq,
        (rfl : site.position = _)⟩
    have hhead := (Member.reads_decodeHead header.pool).run site.position named rest
    obtain ⟨fault, hfault⟩ := (decodeBody_fails_iff_lacks hhead).mpr lacks
    exact ⟨fault, .methodBody start passed row hhead hfault⟩
  | @attributes preface methodsBytes rest header values bytes_eq front methodsTable lacks =>
    let methods : Cursor := ⟨methodsBytes ++ rest, preface.length⟩
    obtain ⟨fields, start, passed⟩ :=
      methodsAt_iff.mpr ⟨preface, front, bytes_eq, (rfl : methods.position = preface.length)⟩
    have passedToo : (Member.decodeMethod unit header.name header.pool).PassesTable methods
        ⟨rest, preface.length + methodsBytes.length⟩ :=
      (Member.reads_decodeMethod _ _ _).passesTable_iff.mpr
        ⟨methodsBytes, values, methodsTable, rfl, rfl⟩
    obtain ⟨fault, hfault⟩ := (Attribute.reads_decodeTable header.pool).exists_failsWith lacks
      (preface.length + methodsBytes.length)
    exact ⟨fault, .attributes start passed passedToo hfault⟩

/-- Bytes are refused with the names of a class and of a method exactly if they break off where
these names go with the place. -/
theorem exists_failure_iff_breaks (unit : String) (bytes : List UInt8)
    (className? methodName? : Option String) :
    (∃ fault, parse unit bytes = .error ⟨unit, className?, methodName?, fault⟩) ↔
      Breaks bytes className? methodName? := by
  constructor
  · rintro ⟨fault, h⟩
    exact ((parse_eq_error_iff _).mp h).2.breaks
  · intro h
    obtain ⟨fault, hfails⟩ := h.exists_failsAt unit
    exact ⟨fault, (parse_eq_error_iff _).mpr ⟨rfl, hfails⟩⟩

/-- Bytes break off in one place only. -/
theorem Breaks.unique {className? className?' methodName? methodName?' : Option String}
    (h : Breaks bytes className? methodName?) (h' : Breaks bytes className?' methodName?') :
    className? = className?' ∧ methodName? = methodName?' := by
  obtain ⟨fault, hparse⟩ := (exists_failure_iff_breaks "" bytes _ _).mpr h
  obtain ⟨fault', hparse'⟩ := (exists_failure_iff_breaks "" bytes _ _).mpr h'
  have hsame := Except.error.inj (hparse.symm.trans hparse')
  exact ⟨congrArg ScanFailure.className? hsame, congrArg ScanFailure.methodName? hsame⟩

end ClassFile

end MonitorAudit
