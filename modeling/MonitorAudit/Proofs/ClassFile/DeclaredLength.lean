import MonitorAudit.Proofs.ClassFile.Diagnosis
import MonitorAudit.Proofs.ClassFile.PayloadStreams

/-!
# The declared length of a record is authoritative

A record says how long its payload is, and that is what the reader goes by. It asks for bytes only
where the front of the record or the declared payload is not there (`IsCutShort`). Once the payload
is split off, a structure that does not end where the payload does is a fault of the record:

* `EndsEarly` says that the structure of a payload is there and that bytes of the payload are left
  over behind it;
* `RunsPast` says that something in a payload needs bytes behind its end. That is a read of the
  structure, or the front or the payload of a record inside a body, which overruns the body around
  it.

Both name the record whose own payload it is, at whatever depth, and the reader blames just that
record (`RecordLevel.failsWith_sizeMismatch_iff`). A line table is never blamed.
-/

set_option autoImplicit false

namespace MonitorAudit

open Decoder (failsWith_bind_iff failsWith_mapFault_iff FaultsIn)
open PayloadFault (inside)

/-! ### Records and where they stand -/

/-- Where a record may stand. -/
inductive RecordLevel where
  /-- Among the attributes of a class, a field or a method. -/
  | outer
  /-- Among the attributes of a body of code. -/
  | inBody
  deriving DecidableEq, Repr

namespace RecordLevel

/-- Reads a record that stands there. -/
def decode (pool : ConstantPool) : RecordLevel → Decoder ClassFault Attribute
  | outer => Attribute.decode pool
  | inBody => decodeRecord pool none

/-- A record of this name may stand there: there is no body inside a body. -/
def Allows (level : RecordLevel) (name : String) : Prop :=
  level = inBody → name ≠ Code.attributeName

end RecordLevel

/-- The front of a record stands at the cursor, and the bytes behind it are `rest`. -/
inductive FrontAt (pool : ConstantPool) (site : Cursor) : AttributeHeader → List UInt8 → Prop
  | intro {nameIndex : UInt16} {length : UInt32} {name : String} {rest : List UInt8}
      (front : site.rest = word16 nameIndex ++ (word32 length ++ rest))
      (resolved : pool.utf8? nameIndex = .ok name) :
      FrontAt pool site ⟨site.position, name, length⟩ rest

/-- The front of a record stands at the cursor, and all of its payload behind it. -/
inductive Delimited (pool : ConstantPool) (site : Cursor) : AttributeHeader → Cursor → Prop
  | intro {header : AttributeHeader} {rest : List UInt8} (front : FrontAt pool site header rest)
      (there : header.length.toNat ≤ rest.length) :
      Delimited pool site header ⟨rest.take header.length.toNat, site.position + 6⟩

/-- Bytes of the record at the cursor are not there: of the index of its name, of its length, or of
a payload that it may have. -/
inductive IsCutShort (pool : ConstantPool) (level : RecordLevel) (site : Cursor) : Nat → Prop
  | index (short : site.remaining < 2) : IsCutShort pool level site (2 - site.remaining)
  | length (named : 2 ≤ site.remaining) (short : site.remaining < 6) :
    IsCutShort pool level site (6 - site.remaining)
  | payload {header : AttributeHeader} {rest : List UInt8} (front : FrontAt pool site header rest)
      (allowed : level.Allows header.name) (short : rest.length < header.length.toNat) :
      IsCutShort pool level site (header.length.toNat - rest.length)

/-- The record at the cursor holds a body of code, and the table of the attributes of the body is at
`table`. -/
inductive BodyAt (pool : ConstantPool) (site : Cursor) : AttributeHeader → Cursor → Prop
  | intro {header : AttributeHeader} {payload table : Cursor} {body : Code}
      (delimited : Delimited pool site header payload) (named : header.name = Code.attributeName)
      (front : Code.decodeFront payload = (.ok body, table)) : BodyAt pool site header table

/-- In the record at the cursor, or in one inside the body that it holds, a structure ends before
the payload of its record does. The record has the header, and the structure uses so many bytes of
the payload. -/
inductive EndsEarly (pool : ConstantPool) : RecordLevel → Cursor → AttributeHeader → Nat → Prop
  | known {level : RecordLevel} {site payload : Cursor} {header : AttributeHeader}
      {kind : AttributeKind} {used spare : List UInt8} {value : Attribute}
      (delimited : Delimited pool site header payload) (named : header.name = kind.name)
      (no_lines : kind ≠ .lineNumberTable) (split : payload.rest = used ++ spare)
      (left_over : spare ≠ []) (behind : PayloadBytes kind used value) :
      EndsEarly pool level site header used.length
  | body {site payload : Cursor} {header : AttributeHeader} {used spare : List UInt8} {code : Code}
      (delimited : Delimited pool site header payload) (named : header.name = Code.attributeName)
      (split : payload.rest = used ++ spare) (left_over : spare ≠ [])
      (behind : BodyBytes pool used code) : EndsEarly pool .outer site header used.length
  | nested {site table inner : Cursor} {outer header : AttributeHeader} {used : Nat}
      (body : BodyAt pool site outer table)
      (row : (decodeRecord pool none).ReachesRow table inner)
      (early : EndsEarly pool .inBody inner header used) : EndsEarly pool .outer site header used

/-- In the record at the cursor, or in one inside the body that it holds, something needs bytes
behind the payload of its record. The record has the header, and so many bytes are missing. -/
inductive RunsPast (pool : ConstantPool) : RecordLevel → Cursor → AttributeHeader → Nat → Prop
  | known {level : RecordLevel} {site payload : Cursor} {header : AttributeHeader}
      {kind : AttributeKind} {offset missing : Nat} (delimited : Delimited pool site header payload)
      (named : header.name = kind.name) (no_lines : kind ≠ .lineNumberTable)
      (out : kind.decode.RunsOut payload offset missing) : RunsPast pool level site header missing
  | bodyFront {site payload : Cursor} {header : AttributeHeader} {offset missing : Nat}
      (delimited : Delimited pool site header payload) (named : header.name = Code.attributeName)
      (out : Code.decodeFront.RunsOut payload offset missing) :
      RunsPast pool .outer site header missing
  | bodyCount {site table : Cursor} {header : AttributeHeader}
      (body : BodyAt pool site header table) (short : table.remaining < 2) :
      RunsPast pool .outer site header (2 - table.remaining)
  | nestedRecord {site table inner : Cursor} {header : AttributeHeader} {missing : Nat}
      (body : BodyAt pool site header table)
      (row : (decodeRecord pool none).ReachesRow table inner)
      (cut : IsCutShort pool .inBody inner missing) : RunsPast pool .outer site header missing
  | nested {site table inner : Cursor} {outer header : AttributeHeader} {missing : Nat}
      (body : BodyAt pool site outer table)
      (row : (decodeRecord pool none).ReachesRow table inner)
      (past : RunsPast pool .inBody inner header missing) : RunsPast pool .outer site header missing

/-! ### Fronts -/

section Front

variable {pool : ConstantPool} {level : RecordLevel} {site : Cursor} {header : AttributeHeader}
  {rest : List UInt8}

/-- A front is read from the bytes that it is, and the cursor is left behind it. -/
theorem frontAt_iff : FrontAt pool site header rest ↔
    AttributeHeader.decode pool site = (.ok header, ⟨rest, site.position + 6⟩) := by
  rw [AttributeHeader.reads_decode pool site]
  constructor
  · rintro ⟨front, resolved⟩
    refine ⟨_, ⟨_, _, _, resolved, rfl, rfl⟩, ?_, by simp⟩
    rw [front, List.append_assoc]
  · rintro ⟨bytes, ⟨nameIndex, length, name, resolved, rfl, rfl⟩, hrest, -⟩
    rw [List.append_assoc] at hrest
    exact .intro hrest resolved

/-- What is left behind a front that is read stands six bytes on. -/
theorem frontAt_of_decode {behind : Cursor}
    (h : AttributeHeader.decode pool site = (.ok header, behind)) :
    FrontAt pool site header behind.rest ∧ behind.position = site.position + 6 := by
  have hposition : behind.position = site.position + 6 := by
    obtain ⟨bytes, ⟨_, _, _, _, rfl, -⟩, -, hposition⟩ :=
      (AttributeHeader.reads_decode pool _ _ _).mp h
    simpa using hposition
  refine ⟨frontAt_iff.mpr ?_, hposition⟩
  rw [← hposition]
  exact h

/-- A word that is there is read. -/
theorem exists_u16_of_le {cursor : Cursor} (h : 2 ≤ cursor.remaining) :
    ∃ value, (Decoder.u16 : Decoder ClassFault UInt16) cursor = (.ok value, cursor.advance 2) := by
  refine ⟨_, Decoder.bind_eq_ok_iff.mpr ⟨_, _, Decoder.take_eq_ok_iff.mpr ⟨h, rfl, rfl⟩, rfl⟩⟩

/-- A front of which the index is not there. -/
theorem failsWith_front_of_index (h : site.remaining < 2) :
    (AttributeHeader.decode pool).FailsWith site
      (.malformed (.truncated site.position (2 - site.remaining))) :=
  failsWith_bind_iff.mpr <| .inr ⟨_, _, rfl,
    failsWith_bind_iff.mpr (.inl (Decoder.failsWith_u16_iff.mpr ⟨h, rfl⟩))⟩

/-- A front of which the index is there, and not the length. -/
theorem failsWith_front_of_length (hnamed : 2 ≤ site.remaining) (h : site.remaining < 6) :
    (AttributeHeader.decode pool).FailsWith site
      (.malformed (.truncated (site.position + 2) (6 - site.remaining))) := by
  obtain ⟨nameIndex, hindex⟩ := exists_u16_of_le hnamed
  have hshort : (site.advance 2).remaining < 4 := by
    rw [Cursor.remaining_advance]
    omega
  have hmissing : 4 - (site.advance 2).remaining = 6 - site.remaining := by
    rw [Cursor.remaining_advance]
    omega
  refine failsWith_bind_iff.mpr (.inr ⟨_, _, rfl, failsWith_bind_iff.mpr (.inr ⟨_, _, hindex, ?_⟩)⟩)
  refine failsWith_bind_iff.mpr (.inl (Decoder.failsWith_u32_iff.mpr ⟨hshort, ?_⟩))
  rw [hmissing]
  rfl

/-- There is no other way for a front not to be read than that its index leads to no name. -/
theorem front_cases_of_failsWith {fault : ClassFault}
    (h : (AttributeHeader.decode pool).FailsWith site fault) :
    (site.remaining < 2 ∧ fault = .malformed (.truncated site.position (2 - site.remaining))) ∨
    (2 ≤ site.remaining ∧ site.remaining < 6 ∧
      fault = .malformed (.truncated (site.position + 2) (6 - site.remaining))) ∨
    ∃ found, fault = .pool found := by
  by_cases hindex : site.remaining < 2
  · exact .inl ⟨hindex, Except.error.inj (h.symm.trans (failsWith_front_of_index hindex))⟩
  by_cases hlength : site.remaining < 6
  · have hnamed := Nat.le_of_not_lt hindex
    exact .inr (.inl ⟨hnamed, hlength,
      Except.error.inj (h.symm.trans (failsWith_front_of_length hnamed hlength))⟩)
  -- Both words are there, so it is the name that is not.
  refine .inr (.inr ?_)
  have hbehind := (failsWith_bind_iff.mp h).resolve_left (by simp)
  obtain ⟨offset, start, hstart, hwords⟩ := hbehind
  obtain rfl : site = start := (Prod.mk.inj hstart).2
  rcases failsWith_bind_iff.mp hwords with hshort | ⟨nameIndex, between, hbetween, hrest⟩
  · exact absurd (Decoder.failsWith_u16_iff.mp hshort).1 hindex
  obtain ⟨value, hvalue⟩ := exists_u16_of_le (Nat.le_of_not_lt hindex)
  obtain rfl : site.advance 2 = between := (Prod.mk.inj (hvalue.symm.trans hbetween)).2
  rcases failsWith_bind_iff.mp hrest with hshort | ⟨length, behind, -, hname⟩
  · have hlt := (Decoder.failsWith_u32_iff.mp hshort).1
    rw [Cursor.remaining_advance] at hlt
    omega
  · have hpool := (failsWith_bind_iff.mp hname).resolve_right (by simp)
    cases hfound : pool.utf8? nameIndex with
    | ok name => simp [hfound, Except.mapError] at hpool
    | error found =>
      rw [hfound] at hpool
      exact ⟨found, (Except.error.inj hpool).symm⟩

/-- Either a front stands at the cursor, or it fails, and the record with it. -/
theorem frontAt_or_failsWith (pool : ConstantPool) (level : RecordLevel) (site : Cursor) :
    (∃ header rest, FrontAt pool site header rest) ∨
    ∃ fault, (AttributeHeader.decode pool).FailsWith site fault ∧
      (level.decode pool).FailsWith site fault := by
  cases hfront : AttributeHeader.decode pool site with
  | mk result behind =>
    cases result with
    | ok header => exact .inl ⟨header, behind.rest, (frontAt_of_decode hfront).1⟩
    | error fault =>
      have hfails : (AttributeHeader.decode pool).FailsWith site fault := congrArg Prod.fst hfront
      refine .inr ⟨fault, hfails, ?_⟩
      cases level with
      | outer | inBody => exact failsWith_bind_iff.mpr (.inl hfails)

end Front

/-! ### Records behind their fronts -/

/-- The decoder reads the structure of a payload of a name. -/
inductive RecordLevel.Uses (pool : ConstantPool) :
    RecordLevel → String → Decoder PayloadFault Attribute → Prop
  | body {name : String} (named : name = Code.attributeName) :
    Uses pool .outer name (.code <$> Code.decode pool)
  | known {level : RecordLevel} {name : String} {kind : AttributeKind} (named : name = kind.name) :
    Uses pool level name kind.decode
  | unknown {level : RecordLevel} {name : String} (name_ne : name ≠ Code.attributeName)
      (no_kind : AttributeKind.ofName? name = none) :
    Uses pool level name (.unknown name <$> Decoder.takeRest)

section Record

variable {pool : ConstantPool} {level : RecordLevel} {site : Cursor} {header : AttributeHeader}
  {rest : List UInt8} {layout : Decoder PayloadFault Attribute}

/-- A payload of a name that may stand there has a structure. -/
theorem RecordLevel.exists_uses (pool : ConstantPool) {name : String} (h : level.Allows name) :
    ∃ layout, level.Uses pool name layout := by
  by_cases hcode : name = Code.attributeName
  · cases level with
    | outer => exact ⟨_, .body hcode⟩
    | inBody => exact absurd hcode (h rfl)
  · cases hkind : AttributeKind.ofName? name with
    | none => exact ⟨_, .unknown hcode hkind⟩
    | some kind => exact ⟨_, .known (AttributeKind.name_of_ofName? hkind).symm⟩

/-- The levels differ in how they read a body. -/
theorem RecordLevel.exists_decode_eq (pool : ConstantPool) (level : RecordLevel) :
    ∃ body?, level.decode pool = decodeRecord pool body? := by
  cases level with
  | outer => exact ⟨some (Code.decode pool), rfl⟩
  | inBody => exact ⟨none, rfl⟩

/-- Behind its front a record is read by the structure of its name. -/
theorem FrontAt.decode_eq (front : FrontAt pool site header rest)
    (uses : level.Uses pool header.name layout) :
    level.decode pool site = decodeDelimited header layout ⟨rest, site.position + 6⟩ := by
  cases uses with
  | body named =>
    show decodeRecord pool (some (Code.decode pool)) site = _
    rw [decodeRecord, Decoder.bind_apply, frontAt_iff.mp front]
    simp only [if_pos named]
  | @known _ _ kind named =>
    have hcode : header.name ≠ Code.attributeName := by
      rw [named]
      exact kind.name_ne_code
    have hkind : AttributeKind.ofName? header.name = some kind := by
      rw [named, AttributeKind.ofName?_name]
    obtain ⟨body?, hlevel⟩ := RecordLevel.exists_decode_eq pool level
    rw [hlevel, decodeRecord, Decoder.bind_apply, frontAt_iff.mp front]
    simp only [if_neg hcode, hkind]
  | unknown name_ne no_kind =>
    obtain ⟨body?, hlevel⟩ := RecordLevel.exists_decode_eq pool level
    rw [hlevel, decodeRecord, Decoder.bind_apply, frontAt_iff.mp front]
    simp only [if_neg name_ne, no_kind]

/-- A body inside a body is refused behind its front. -/
theorem FrontAt.failsWith_of_misplaced (front : FrontAt pool site header rest)
    (h : ¬ level.Allows header.name) :
    (level.decode pool).FailsWith site
      (.record (.misplaced header.name header.offset Code.attributeName)) := by
  obtain ⟨hlevel, hname⟩ : level = .inBody ∧ header.name = Code.attributeName := by
    simpa [RecordLevel.Allows] using h
  subst hlevel
  refine failsWith_bind_iff.mpr (.inr ⟨header, _, frontAt_iff.mp front, ?_⟩)
  rw [if_pos hname]
  rfl

/-- What goes wrong in a payload that is there ends the record, unless it is a line table. -/
theorem failsWith_decodeDelimited_iff {behind : Cursor} {fault : ClassFault} :
    (decodeDelimited header layout).FailsWith behind fault ↔
      Decoder.IsShort behind header.length.toNat fault ∨
      header.length.toNat ≤ behind.remaining ∧
        header.name ≠ AttributeKind.lineNumberTable.name ∧
        header.interpret layout ⟨behind.rest.take header.length.toNat, behind.position⟩ =
          .error fault := by
  unfold decodeDelimited
  rw [failsWith_bind_iff, Decoder.failsWith_window_iff]
  refine or_congr_right ?_
  simp only [Decoder.window_eq_ok_iff]
  constructor
  · rintro ⟨payload, left, ⟨hthere, rfl, rfl⟩, hrest⟩
    refine ⟨hthere, ?_⟩
    split at hrest
    · simp at hrest
    · rename_i found hfound
      split at hrest
      · simp at hrest
      · rename_i hname
        exact ⟨hname, by rw [hfound, Decoder.failsWith_fail_iff.mp hrest]⟩
  · rintro ⟨hthere, hname, hfault⟩
    refine ⟨_, _, ⟨hthere, rfl, rfl⟩, ?_⟩
    rw [hfault]
    simp only [if_neg hname]
    rfl

/-! ### Records that are cut short -/

/-- The structure of a payload asks for no bytes of the file. -/
theorem RecordLevel.Uses.faultsIn {name : String} (uses : level.Uses pool name layout) :
    layout.FaultsIn (inside ClassFault.IsFinal) := by
  cases uses with
  | body _ => exact (Code.faultsIn_decode pool).map _
  | known _ => exact AttributeKind.faultsIn_decode _
  | unknown _ _ => exact .map .takeRest _

/-- A record asks for bytes exactly where it is cut short, and for those that are missing. -/
theorem RecordLevel.failsWith_truncated_iff {missing : Nat} :
    (∃ offset, (level.decode pool).FailsWith site (.malformed (.truncated offset missing))) ↔
      IsCutShort pool level site missing := by
  constructor
  · rintro ⟨offset, hfault⟩
    rcases frontAt_or_failsWith pool level site with ⟨header, rest, front⟩ |
      ⟨found, hfront, hrecord⟩
    · by_cases hallowed : level.Allows header.name
      · obtain ⟨layout, uses⟩ := exists_uses pool hallowed
        rw [Decoder.FailsWith, front.decode_eq uses] at hfault
        rcases failsWith_decodeDelimited_iff.mp hfault with ⟨hshort, hmissing⟩ | ⟨-, -, hrefused⟩
        · obtain ⟨-, rfl⟩ := MalformedClass.truncated.inj (ClassFault.malformed.inj hmissing)
          exact .payload front hallowed hshort
        · have hfinal := AttributeHeader.isFinal_of_interpret uses.faultsIn hrefused
          simp [ClassFault.IsFinal, endOfData?] at hfinal
      · have hmisplaced := front.failsWith_of_misplaced hallowed
        simpa using hfault.symm.trans hmisplaced
    · obtain rfl : .malformed (.truncated offset missing) = found :=
        Except.error.inj (hfault.symm.trans hrecord)
      rcases front_cases_of_failsWith hfront with ⟨hshort, hmissing⟩ |
        ⟨hnamed, hshort, hmissing⟩ | ⟨other, hpool⟩
      · obtain ⟨-, rfl⟩ := MalformedClass.truncated.inj (ClassFault.malformed.inj hmissing)
        exact .index hshort
      · obtain ⟨-, rfl⟩ := MalformedClass.truncated.inj (ClassFault.malformed.inj hmissing)
        exact .length hnamed hshort
      · simp at hpool
  · intro hcut
    obtain ⟨body?, hlevel⟩ := RecordLevel.exists_decode_eq pool level
    cases hcut with
    | index short =>
      rw [hlevel]
      exact ⟨_, failsWith_bind_iff.mpr (.inl (failsWith_front_of_index short))⟩
    | length named short =>
      rw [hlevel]
      exact ⟨_, failsWith_bind_iff.mpr (.inl (failsWith_front_of_length named short))⟩
    | payload front allowed short =>
      obtain ⟨layout, uses⟩ := exists_uses pool allowed
      refine ⟨site.position + 6, ?_⟩
      rw [Decoder.FailsWith, front.decode_eq uses]
      exact failsWith_decodeDelimited_iff.mpr (.inl ⟨short, rfl⟩)

/-- A record is cut short if fewer than the six bytes of a front are there, or fewer than the front
declares. -/
theorem exists_isCutShort_iff :
    (∃ missing, IsCutShort pool level site missing) ↔
      site.remaining < 6 ∨ ∃ header rest, FrontAt pool site header rest ∧
        level.Allows header.name ∧ rest.length < header.length.toNat := by
  constructor
  · rintro ⟨missing, hcut⟩
    cases hcut with
    | index short => exact .inl (by omega)
    | length named short => exact .inl short
    | payload front allowed short => exact .inr ⟨_, _, front, allowed, short⟩
  · rintro (hfront | ⟨header, rest, front, allowed, short⟩)
    · by_cases hindex : site.remaining < 2
      · exact ⟨_, .index hindex⟩
      · exact ⟨_, .length (Nat.le_of_not_lt hindex) hfront⟩
    · exact ⟨_, .payload front allowed short⟩

end Record

/-! ### Structures that do not fit their payloads -/

/-- Where a form is read, bytes are left over exactly if they stand behind bytes of the form. -/
theorem Decoder.Reads.leaves_iff {α : Type} {decoder : Decoder PayloadFault α}
    {form : List UInt8 → α → Prop} (h : Decoder.Reads decoder fun _ ↦ form) (payload : Cursor)
    (count : Nat) :
    (∃ value left, decoder payload = (.ok value, left) ∧ left.rest ≠ [] ∧
      left.position - payload.position = count) ↔
      ∃ used spare value, payload.rest = used ++ spare ∧ spare ≠ [] ∧ form used value ∧
        used.length = count := by
  constructor
  · rintro ⟨value, left, hvalue, hleft, hcount⟩
    obtain ⟨used, hused, hrest, hposition⟩ := (h _ _ _).mp hvalue
    refine ⟨used, left.rest, value, hrest, hleft, hused, ?_⟩
    rw [hposition] at hcount
    omega
  · rintro ⟨used, spare, value, hrest, hspare, hused, hcount⟩
    refine ⟨value, ⟨spare, payload.position + used.length⟩, (h _ _ _).mpr ?_, hspare, ?_⟩
    · exact ⟨used, hused, hrest, rfl⟩
    · show payload.position + used.length - payload.position = count
      omega

/-- A payload is refused for its length if bytes of it are left over, or if its structure asks for
more. Otherwise the fault is that of a record inside. -/
theorem AttributeHeader.interpret_eq_sizeMismatch_iff {header blamed : AttributeHeader}
    {layout : Decoder PayloadFault Attribute} {payload : Cursor} {consumed : Nat} :
    header.interpret layout payload = .error (.record
        (.sizeMismatch blamed.name blamed.offset blamed.length consumed)) ↔
      blamed = header ∧ ((∃ value left, layout payload = (.ok value, left) ∧ left.rest ≠ [] ∧
          left.position - payload.position = consumed) ∨
        ∃ offset missing, layout.FailsWith payload (.endOfData ⟨offset, missing⟩) ∧
          consumed = header.length.toNat + missing) ∨
      layout.FailsWith payload (.other (.record
        (.sizeMismatch blamed.name blamed.offset blamed.length consumed))) := by
  have hblamed (declared : Nat) : ClassFault.record (.sizeMismatch header.name header.offset
      header.length declared) = .record (.sizeMismatch blamed.name blamed.offset blamed.length
        consumed) ↔ blamed = header ∧ declared = consumed := by
    cases blamed
    cases header
    simp only [ClassFault.record.injEq, AttributeFault.sizeMismatch.injEq, mk.injEq]
    grind
  unfold interpret Decoder.FailsWith
  cases layout payload with
  | mk result left =>
    cases result with
    | ok value =>
      by_cases hleft : left.rest = []
      · simp [Cursor.isEmpty, hleft]
      · simp [Cursor.isEmpty, hleft, hblamed]
    | error fault =>
      cases fault with
      | endOfData failure =>
        cases failure
        simp [AttributeHeader.fault, hblamed, eq_comm (a := consumed)]
      | invalidTag tag offset => simp [AttributeHeader.fault]
      | tooDeep offset => simp [AttributeHeader.fault]
      | other found => simp [AttributeHeader.fault]

section Body

variable {pool : ConstantPool} {payload : Cursor}

/-- A body fails in its front, or in the table of its attributes, whose faults are taken for ones of
the payload. -/
theorem Code.failsWith_decode_iff {fault : PayloadFault} :
    (Code.decode pool).FailsWith payload fault ↔ Code.decodeFront.FailsWith payload fault ∨
      ∃ body table, Code.decodeFront payload = (.ok body, table) ∧ ∃ inner,
        PayloadFault.ofClassFault inner = fault ∧
          ((Decoder.u16 : Decoder ClassFault UInt16).FailsWith table inner ∨
            ∃ site, (decodeRecord pool none).ReachesRow table site ∧
              (decodeRecord pool none).FailsWith site inner) := by
  rw [Code.decode_eq, failsWith_bind_iff]
  refine or_congr_right <| exists_congr fun body ↦ exists_congr fun table ↦
    and_congr_right fun _ ↦ ?_
  rw [failsWith_bind_iff, or_iff_left (by simp), failsWith_mapFault_iff]
  refine exists_congr fun inner ↦ ?_
  rw [and_comm, Code.decodeAttributes, Decoder.failsWith_counted16_iff]

theorem PayloadFault.ofClassFault_eq_endOfData_iff {fault : ClassFault} {failure : EndOfData} :
    ofClassFault fault = .endOfData failure ↔
      fault = .malformed (.truncated failure.offset failure.wanted) := by
  cases failure
  cases fault with
  | malformed fault => cases fault <;> simp [ofClassFault]
  | _ => simp [ofClassFault]

/-- The number of bytes that a body asks for is missing of a read in front of its attributes, of
their number, or of one of their records. -/
theorem Code.asks_iff {missing : Nat} :
    (∃ offset, (Code.decode pool).FailsWith payload (.endOfData ⟨offset, missing⟩)) ↔
      (∃ offset, Code.decodeFront.RunsOut payload offset missing) ∨
      ∃ body table, Code.decodeFront payload = (.ok body, table) ∧
        (table.remaining < 2 ∧ missing = 2 - table.remaining ∨
          ∃ site, (decodeRecord pool none).ReachesRow table site ∧
            IsCutShort pool .inBody site missing) := by
  constructor
  · rintro ⟨offset, hfault⟩
    rcases Code.failsWith_decode_iff.mp hfault with hfront |
      ⟨body, table, hfront, inner, hinner, hcount | ⟨site, hrow, hsite⟩⟩
    · exact .inl ⟨offset, Code.resumable_decodeFront.runsOut_iff_asks.mpr ⟨_, hfront, rfl⟩⟩
    · obtain ⟨hshort, rfl⟩ := Decoder.failsWith_u16_iff.mp hcount
      obtain ⟨-, hmissing⟩ := EndOfData.mk.inj (PayloadFault.endOfData.inj hinner)
      exact .inr ⟨body, table, hfront, .inl ⟨hshort, hmissing.symm⟩⟩
    · obtain rfl := PayloadFault.ofClassFault_eq_endOfData_iff.mp hinner
      have hcut : IsCutShort pool .inBody site missing :=
        RecordLevel.failsWith_truncated_iff.mp ⟨offset, hsite⟩
      exact .inr ⟨body, table, hfront, .inr ⟨site, hrow, hcut⟩⟩
  · rintro (⟨offset, hruns⟩ | ⟨body, table, hfront, ⟨hshort, rfl⟩ | ⟨site, hrow, hcut⟩⟩)
    · obtain ⟨fault, hfault, hasks⟩ := Code.resumable_decodeFront.runsOut_iff_asks.mp hruns
      obtain rfl := (PayloadFault.endOfData?_eq_some_iff _ _).mp hasks
      exact ⟨offset, Code.failsWith_decode_iff.mpr (.inl hfault)⟩
    · refine ⟨table.position, Code.failsWith_decode_iff.mpr (.inr ⟨body, table, hfront,
        .malformed (.truncated table.position (2 - table.remaining)), rfl, ?_⟩)⟩
      exact .inl (Decoder.failsWith_u16_iff.mpr ⟨hshort, rfl⟩)
    · obtain ⟨offset, hsite⟩ := RecordLevel.failsWith_truncated_iff.mpr hcut
      exact ⟨offset, Code.failsWith_decode_iff.mpr (.inr ⟨body, table, hfront,
        .malformed (.truncated offset missing), rfl, .inr ⟨site, hrow, hsite⟩⟩)⟩

/-- The fault of a record with a name of its own is one in the attributes of a body. -/
theorem Code.failsWith_record_iff {fault : AttributeFault} :
    (Code.decode pool).FailsWith payload (.other (.record fault)) ↔
      ∃ body table site, Code.decodeFront payload = (.ok body, table) ∧
        (decodeRecord pool none).ReachesRow table site ∧
          (decodeRecord pool none).FailsWith site (.record fault) := by
  constructor
  · exact Code.exists_row_of_failsWith
  · rintro ⟨body, table, site, hfront, hrow, hsite⟩
    exact Code.failsWith_decode_iff.mpr (.inr ⟨body, table, hfront, .record fault, rfl,
      .inr ⟨site, hrow, hsite⟩⟩)

end Body

/-- The declared length of the record with the header is not the number of bytes that its structure
needs. -/
def Misfits (pool : ConstantPool) (level : RecordLevel) (site : Cursor) (header : AttributeHeader)
    (consumed : Nat) : Prop :=
  EndsEarly pool level site header consumed ∨
    ∃ missing, RunsPast pool level site header missing ∧ consumed = header.length.toNat + missing

section Misfit

variable {pool : ConstantPool} {level : RecordLevel} {site : Cursor}
  {header blamed : AttributeHeader} {consumed : Nat}

/-- A record is refused for a length if its payload is there and is refused for it. -/
theorem RecordLevel.failsWith_sizeMismatch_iff_interpret :
    (level.decode pool).FailsWith site
        (.record (.sizeMismatch blamed.name blamed.offset blamed.length consumed)) ↔
      ∃ header payload layout, Delimited pool site header payload ∧
        level.Uses pool header.name layout ∧
        header.name ≠ AttributeKind.lineNumberTable.name ∧
        header.interpret layout payload =
          .error (.record (.sizeMismatch blamed.name blamed.offset blamed.length consumed)) := by
  constructor
  · intro hfault
    rcases frontAt_or_failsWith pool level site with ⟨header, rest, front⟩ |
      ⟨found, hfront, hrecord⟩
    · by_cases hallowed : level.Allows header.name
      · obtain ⟨layout, uses⟩ := exists_uses pool hallowed
        rw [Decoder.FailsWith, front.decode_eq uses] at hfault
        rcases failsWith_decodeDelimited_iff.mp hfault with ⟨-, hshort⟩ | ⟨hthere, hname, hrefused⟩
        · exact absurd hshort (by simp [ofEndOfData])
        · exact ⟨header, _, layout, .intro front hthere, uses, hname, hrefused⟩
      · simpa using hfault.symm.trans (front.failsWith_of_misplaced hallowed)
    · obtain rfl := Except.error.inj (hrecord.symm.trans hfault)
      rcases front_cases_of_failsWith hfront with ⟨-, h⟩ | ⟨-, -, h⟩ | ⟨_, h⟩
      all_goals simp at h
  · rintro ⟨header, payload, layout, ⟨front, hthere⟩, uses, hname, hrefused⟩
    rw [Decoder.FailsWith, front.decode_eq uses]
    exact failsWith_decodeDelimited_iff.mpr (.inr ⟨hthere, hname, hrefused⟩)

/-- The payload of a known kind has nothing inside that is blamed in its place. -/
theorem AttributeKind.interpret_eq_sizeMismatch_iff {kind : AttributeKind} {payload : Cursor} :
    header.interpret kind.decode payload =
        .error (.record (.sizeMismatch blamed.name blamed.offset blamed.length consumed)) ↔
      blamed = header ∧ ((∃ used spare value, payload.rest = used ++ spare ∧ spare ≠ [] ∧
          PayloadBytes kind used value ∧ used.length = consumed) ∨
        ∃ offset missing, kind.decode.RunsOut payload offset missing ∧
          consumed = header.length.toNat + missing) := by
  have hnever : ¬ kind.decode.FailsWith payload
      (.other (.record (.sizeMismatch blamed.name blamed.offset blamed.length consumed))) := by
    intro hfault
    have hfaults : kind.decode.FaultsIn (inside fun _ ↦ False) := kind.faultsIn_decode
    exact hfaults.holds hfault
  rw [AttributeHeader.interpret_eq_sizeMismatch_iff, or_iff_left hnever,
    kind.reads_decode.leaves_iff]
  simp only [kind.resumable_decode.runsOut_iff_asks, Decoder.Asks,
    PayloadFault.endOfData?_eq_some_iff, exists_eq_right]

/-- The payload of a body is refused for its own length, or for that of a record inside the body. -/
theorem Code.interpret_eq_sizeMismatch_iff {payload : Cursor} :
    header.interpret (Attribute.code <$> Code.decode pool) payload =
        .error (.record (.sizeMismatch blamed.name blamed.offset blamed.length consumed)) ↔
      blamed = header ∧ ((∃ used spare code, payload.rest = used ++ spare ∧ spare ≠ [] ∧
          BodyBytes pool used code ∧ used.length = consumed) ∨
        ∃ offset missing, (Code.decode pool).FailsWith payload (.endOfData ⟨offset, missing⟩) ∧
          consumed = header.length.toNat + missing) ∨
      ∃ body table site, Code.decodeFront payload = (.ok body, table) ∧
        (decodeRecord pool none).ReachesRow table site ∧
          (decodeRecord pool none).FailsWith site
            (.record (.sizeMismatch blamed.name blamed.offset blamed.length consumed)) := by
  have hleaves := ((Code.reads_decode pool).bind_pure Attribute.code).leaves_iff payload consumed
  rw [AttributeHeader.interpret_eq_sizeMismatch_iff]
  simp only [Decoder.failsWith_map_iff, Code.failsWith_record_iff]
  refine or_congr_left (and_congr_right fun _ ↦ or_congr_left (hleaves.trans ?_))
  constructor
  · rintro ⟨used, spare, value, hsplit, hspare, ⟨code, hcode, -⟩, hcount⟩
    exact ⟨used, spare, code, hsplit, hspare, hcode, hcount⟩
  · rintro ⟨used, spare, code, hsplit, hspare, hcode, hcount⟩
    exact ⟨used, spare, .code code, hsplit, hspare, ⟨code, hcode, rfl⟩, hcount⟩

/-- A line table is the only kind of payload under its name. -/
theorem AttributeKind.ne_lineNumberTable_iff {kind : AttributeKind} {name : String}
    (named : name = kind.name) :
    name ≠ AttributeKind.lineNumberTable.name ↔ kind ≠ .lineNumberTable := by
  rw [named]
  constructor
  · rintro hne rfl
    exact hne rfl
  · intro hne hname
    exact hne (AttributeKind.name_injective hname)

/-- A body is not taken for a line table. -/
theorem Code.ne_lineNumberTable {name : String} (named : name = Code.attributeName) :
    name ≠ AttributeKind.lineNumberTable.name := by
  rw [named]
  exact (AttributeKind.name_ne_code _).symm

/-- A body that is refused for a length ends the record that holds it. -/
theorem RecordLevel.failsWith_of_body {payload : Cursor}
    (delimited : Delimited pool site header payload) (named : header.name = Code.attributeName)
    (h : header.interpret (Attribute.code <$> Code.decode pool) payload =
      .error (.record (.sizeMismatch blamed.name blamed.offset blamed.length consumed))) :
    (RecordLevel.outer.decode pool).FailsWith site
      (.record (.sizeMismatch blamed.name blamed.offset blamed.length consumed)) :=
  failsWith_sizeMismatch_iff_interpret.mpr
    ⟨header, payload, _, delimited, .body named, Code.ne_lineNumberTable named, h⟩

/-- A known payload that is refused for a length ends its record, unless it is a line table. -/
theorem RecordLevel.failsWith_of_known {kind : AttributeKind} {payload : Cursor}
    (delimited : Delimited pool site header payload) (named : header.name = kind.name)
    (no_lines : kind ≠ .lineNumberTable)
    (h : header.interpret kind.decode payload =
      .error (.record (.sizeMismatch blamed.name blamed.offset blamed.length consumed))) :
    (level.decode pool).FailsWith site
      (.record (.sizeMismatch blamed.name blamed.offset blamed.length consumed)) :=
  failsWith_sizeMismatch_iff_interpret.mpr
    ⟨header, payload, _, delimited, .known named,
      (AttributeKind.ne_lineNumberTable_iff named).mpr no_lines, h⟩

/-- A body that asks for bytes is refused for them. -/
theorem RecordLevel.failsWith_of_asks {payload : Cursor} {missing : Nat}
    (delimited : Delimited pool site header payload) (named : header.name = Code.attributeName)
    (h : ∃ offset, (Code.decode pool).FailsWith payload (.endOfData ⟨offset, missing⟩)) :
    (RecordLevel.outer.decode pool).FailsWith site (.record
      (.sizeMismatch header.name header.offset header.length (header.length.toNat + missing))) := by
  obtain ⟨offset, hasks⟩ := h
  exact failsWith_of_body delimited named
    (Code.interpret_eq_sizeMismatch_iff.mpr (.inl ⟨rfl, .inr ⟨offset, missing, hasks, rfl⟩⟩))

/-- A record inside a body that is refused for a length ends the record that holds the body. -/
theorem BodyAt.failsWith_of_row {table inner : Cursor} (body : BodyAt pool site header table)
    (row : (decodeRecord pool none).ReachesRow table inner)
    (h : (RecordLevel.inBody.decode pool).FailsWith inner
      (.record (.sizeMismatch blamed.name blamed.offset blamed.length consumed))) :
    (RecordLevel.outer.decode pool).FailsWith site
      (.record (.sizeMismatch blamed.name blamed.offset blamed.length consumed)) := by
  obtain ⟨delimited, named, front⟩ := body
  exact RecordLevel.failsWith_of_body delimited named
    (Code.interpret_eq_sizeMismatch_iff.mpr (.inr ⟨_, _, inner, front, row, h⟩))

/-- A record is refused where a structure ends early. -/
theorem EndsEarly.failsWith {used : Nat} (h : EndsEarly pool level site header used) :
    (level.decode pool).FailsWith site
      (.record (.sizeMismatch header.name header.offset header.length used)) := by
  induction h with
  | known delimited named no_lines split left_over behind =>
    exact RecordLevel.failsWith_of_known delimited named no_lines
      (AttributeKind.interpret_eq_sizeMismatch_iff.mpr
        ⟨rfl, .inl ⟨_, _, _, split, left_over, behind, rfl⟩⟩)
  | body delimited named split left_over behind =>
    exact RecordLevel.failsWith_of_body delimited named
      (Code.interpret_eq_sizeMismatch_iff.mpr
        (.inl ⟨rfl, .inl ⟨_, _, _, split, left_over, behind, rfl⟩⟩))
  | nested body row _ ih => exact body.failsWith_of_row row ih

/-- A record is refused where a structure runs past its payload. -/
theorem RunsPast.failsWith {missing : Nat} (h : RunsPast pool level site header missing) :
    (level.decode pool).FailsWith site (.record
      (.sizeMismatch header.name header.offset header.length (header.length.toNat + missing))) := by
  induction h with
  | known delimited named no_lines out =>
    exact RecordLevel.failsWith_of_known delimited named no_lines
      (AttributeKind.interpret_eq_sizeMismatch_iff.mpr ⟨rfl, .inr ⟨_, _, out, rfl⟩⟩)
  | bodyFront delimited named out =>
    exact RecordLevel.failsWith_of_asks delimited named (Code.asks_iff.mpr (.inl ⟨_, out⟩))
  | bodyCount body short =>
    obtain ⟨delimited, named, front⟩ := body
    exact RecordLevel.failsWith_of_asks delimited named
      (Code.asks_iff.mpr (.inr ⟨_, _, front, .inl ⟨short, rfl⟩⟩))
  | nestedRecord body row cut =>
    obtain ⟨delimited, named, front⟩ := body
    exact RecordLevel.failsWith_of_asks delimited named
      (Code.asks_iff.mpr (.inr ⟨_, _, front, .inr ⟨_, row, cut⟩⟩))
  | nested body row _ ih => exact body.failsWith_of_row row ih

/-- A body that asks for bytes runs past the payload of its record. -/
theorem RunsPast.of_asks {payload : Cursor} {missing : Nat}
    (delimited : Delimited pool site header payload) (named : header.name = Code.attributeName)
    (h : ∃ offset, (Code.decode pool).FailsWith payload (.endOfData ⟨offset, missing⟩)) :
    RunsPast pool .outer site header missing := by
  rcases Code.asks_iff.mp h with ⟨start, hruns⟩ |
    ⟨body, table, hfront, ⟨hshort, rfl⟩ | ⟨inner, hrow, hcut⟩⟩
  · exact .bodyFront delimited named hruns
  · exact .bodyCount ⟨delimited, named, hfront⟩ hshort
  · exact .nestedRecord ⟨delimited, named, hfront⟩ hrow hcut

/-- A record that is refused for a length misfits, or one inside it does, provided that this is so
inside a body. -/
theorem Misfits.of_failsWith_of_nested
    (hnested : level = .outer → ∀ inner : Cursor, (RecordLevel.inBody.decode pool).FailsWith inner
        (.record (.sizeMismatch blamed.name blamed.offset blamed.length consumed)) →
      Misfits pool .inBody inner blamed consumed)
    (h : (level.decode pool).FailsWith site
        (.record (.sizeMismatch blamed.name blamed.offset blamed.length consumed))) :
    Misfits pool level site blamed consumed := by
  obtain ⟨header, payload, layout, delimited, uses, hname, hrefused⟩ :=
    RecordLevel.failsWith_sizeMismatch_iff_interpret.mp h
  cases uses with
  | known named =>
    have hkind := (AttributeKind.ne_lineNumberTable_iff named).mp hname
    obtain ⟨rfl, hmisfit⟩ := AttributeKind.interpret_eq_sizeMismatch_iff.mp hrefused
    rcases hmisfit with ⟨used, spare, value, hsplit, hspare, hused, rfl⟩ |
      ⟨offset, missing, hruns, hconsumed⟩
    · exact .inl (.known delimited named hkind hsplit hspare hused)
    · exact .inr ⟨missing, .known delimited named hkind hruns, hconsumed⟩
  | body named =>
    rcases Code.interpret_eq_sizeMismatch_iff.mp hrefused with
      ⟨rfl, ⟨used, spare, code, hsplit, hspare, hused, rfl⟩ | ⟨offset, missing, hasks, hconsumed⟩⟩ |
      ⟨body, table, inner, hfront, hrow, hinner⟩
    · exact .inl (.body delimited named hsplit hspare hused)
    · exact .inr ⟨missing, .of_asks delimited named ⟨offset, hasks⟩, hconsumed⟩
    · rcases hnested rfl inner hinner with hearly | ⟨missing, hpast, hconsumed⟩
      · exact .inl (.nested ⟨delimited, named, hfront⟩ hrow hearly)
      · exact .inr ⟨missing, .nested ⟨delimited, named, hfront⟩ hrow hpast, hconsumed⟩
  | unknown _ _ =>
    -- All bytes are taken, whatever they are.
    simp [AttributeHeader.interpret, Decoder.map_apply, Decoder.takeRest, Cursor.isEmpty]
      at hrefused

/-- A record is refused for a length exactly where its own length misfits, or that of a record
inside it, and it is that record that is blamed. -/
theorem RecordLevel.failsWith_sizeMismatch_iff :
    (level.decode pool).FailsWith site
        (.record (.sizeMismatch blamed.name blamed.offset blamed.length consumed)) ↔
      Misfits pool level site blamed consumed := by
  constructor
  · -- There is no body inside a body, so that one level inside is enough.
    exact Misfits.of_failsWith_of_nested fun _ inner ↦ Misfits.of_failsWith_of_nested (by simp)
  · rintro (hearly | ⟨missing, hpast, rfl⟩)
    · exact hearly.failsWith
    · exact hpast.failsWith

end Misfit

/-! ### Payloads and the reader behind them -/

section Payload

variable {pool : ConstantPool} {level : RecordLevel} {site payload : Cursor}
  {header : AttributeHeader}

theorem Delimited.length_eq (h : Delimited pool site header payload) :
    payload.rest.length = header.length.toNat := by
  obtain ⟨-, there⟩ := h
  exact List.length_take_of_le there

/-- What ends early uses fewer bytes than are declared. -/
theorem EndsEarly.lt {used : Nat} (h : EndsEarly pool level site header used) :
    used < header.length.toNat := by
  have hless {used spare : List UInt8} {payload : Cursor} {header : AttributeHeader} {site : Cursor}
      (delimited : Delimited pool site header payload) (split : payload.rest = used ++ spare)
      (left_over : spare ≠ []) : used.length < header.length.toNat := by
    have hspare := List.length_pos_of_ne_nil left_over
    rw [← delimited.length_eq, split, List.length_append]
    omega
  induction h with
  | known delimited _ _ split left_over _ => exact hless delimited split left_over
  | body delimited _ split left_over _ => exact hless delimited split left_over
  | nested _ _ _ ih => exact ih

theorem IsCutShort.one_le {missing : Nat} (h : IsCutShort pool level site missing) :
    1 ≤ missing := by
  cases h with
  | index short => omega
  | length named short => omega
  | payload front allowed short => omega

/-- What runs past its payload misses bytes. -/
theorem RunsPast.one_le {missing : Nat} (h : RunsPast pool level site header missing) :
    1 ≤ missing := by
  induction h with
  | known _ _ _ out => exact out.one_le
  | bodyFront _ _ out => exact out.one_le
  | bodyCount _ short => omega
  | nestedRecord _ _ cut => exact cut.one_le
  | nested _ _ _ ih => exact ih

theorem FrontAt.behind_eq {rest : List UInt8} (h : FrontAt pool site header rest) :
    (⟨rest, site.position + 6⟩ : Cursor) = site.advance 6 := by
  obtain ⟨front, -⟩ := h
  rw [Cursor.advance, front, ← List.append_assoc, List.drop_left' (by simp)]

/-- The reader moves behind the payload, whatever is read from it. -/
theorem RecordLevel.delimited_of_decode {value : Attribute} {left : Cursor}
    (h : level.decode pool site = (.ok value, left)) :
    ∃ header payload, Delimited pool site header payload ∧
      left = site.advance (6 + header.length.toNat) := by
  rcases frontAt_or_failsWith pool level site with ⟨header, rest, front⟩ | ⟨fault, -, hfault⟩
  · by_cases hallowed : level.Allows header.name
    · obtain ⟨layout, uses⟩ := exists_uses pool hallowed
      rw [front.decode_eq uses] at h
      obtain ⟨payload, behind, hpayload, hrest⟩ := Decoder.bind_eq_ok_iff.mp h
      obtain ⟨hthere, rfl, rfl⟩ := Decoder.window_eq_ok_iff.mp hpayload
      refine ⟨header, _, .intro front hthere, ?_⟩
      rw [← Cursor.advance_advance, ← front.behind_eq]
      -- Behind the payload nothing is read.
      cases hresult : header.interpret layout
          ⟨rest.take header.length.toNat, site.position + 6⟩ with
      | ok found =>
        rw [hresult] at hrest
        exact (Prod.mk.inj hrest).2.symm
      | error fault =>
        simp only [hresult] at hrest
        by_cases hname : header.name = AttributeKind.lineNumberTable.name
        · rw [if_pos hname] at hrest
          exact (Prod.mk.inj hrest).2.symm
        · rw [if_neg hname] at hrest
          exact absurd hrest (by simp [Decoder.fail])
    · exact absurd (front.failsWith_of_misplaced hallowed) (Decoder.not_failsWith_of_ok h _)
  · exact absurd hfault (Decoder.not_failsWith_of_ok h fault)

/-- A line table is read once its payload is there, and where it is none its bytes are kept. -/
theorem Delimited.decode_of_lines (h : Delimited pool site header payload)
    (named : header.name = AttributeKind.lineNumberTable.name) :
    ∃ value, level.decode pool site = (.ok value, site.advance (6 + header.length.toNat)) ∧
      ((∃ rows, Table16 (fun row line ↦ row = LineNumber.encode line) payload.rest rows ∧
          value = .lineNumberTable (.ofRows rows)) ∨
        (∀ rows, ¬ Table16 (fun row line ↦ row = LineNumber.encode line) payload.rest rows) ∧
          value = .unknown header.name payload.rest) := by
  have hlength := h.length_eq
  obtain ⟨front, there⟩ := h
  rename_i rest
  have hrun {value : Attribute} (hvalue : (rest.take header.length.toNat).length =
      header.length.toNat ∧ (PayloadBytes .lineNumberTable (rest.take header.length.toNat) value ∨
        header.name = AttributeKind.lineNumberTable.name ∧
          (∀ found, ¬ PayloadBytes .lineNumberTable (rest.take header.length.toNat) found) ∧
            value = .unknown header.name (rest.take header.length.toNat))) :
      level.decode pool site = (.ok value, site.advance (6 + header.length.toNat)) := by
    have hreads := (reads_decodeDelimited header
      (AttributeKind.reads_decode .lineNumberTable).usesUp).run (site.position + 6) hvalue
      (rest.drop header.length.toNat)
    rw [List.take_append_drop, hlength] at hreads
    rw [front.decode_eq (.known named), hreads, ← Cursor.advance_advance, ← front.behind_eq]
    rfl
  by_cases hlines : ∃ rows, Table16 (fun row line ↦ row = LineNumber.encode line)
      (rest.take header.length.toNat) rows
  · obtain ⟨rows, table⟩ := hlines
    exact ⟨_, hrun ⟨hlength, .inl (.lineNumberTable table)⟩, .inl ⟨rows, table, rfl⟩⟩
  · have hnone : ∀ found,
        ¬ PayloadBytes .lineNumberTable (rest.take header.length.toNat) found := by
      rintro found ⟨table⟩
      exact hlines ⟨_, table⟩
    exact ⟨_, hrun ⟨hlength, .inr ⟨named, hnone, rfl⟩⟩,
      .inr ⟨fun rows table ↦ hlines ⟨rows, table⟩, rfl⟩⟩

end Payload

/-! ### The declared length -/

/-- The declared length is authoritative, for a record of any level at any cursor.

The record asks for bytes exactly if fewer than the six bytes of its front are there, or fewer than
its front declares. If it is read, the reader moves by six bytes and the declared length. It is
refused for a length exactly where a structure of its own or inside it ends before its payload does,
which then uses fewer bytes than are declared, or where something needs bytes behind the payload,
which then are added to those that are declared. The record that is blamed is the one whose own
payload it is. And a line table is always read once its payload is there. -/
theorem declared_length_is_authoritative (pool : ConstantPool) (level : RecordLevel)
    (site : Cursor) :
    ((∃ offset missing,
        (level.decode pool).FailsWith site (.malformed (.truncated offset missing))) ↔
      site.remaining < 6 ∨ ∃ header rest, FrontAt pool site header rest ∧
        level.Allows header.name ∧ rest.length < header.length.toNat) ∧
    (∀ value left, level.decode pool site = (.ok value, left) →
      ∃ header payload, Delimited pool site header payload ∧
        left = site.advance (6 + header.length.toNat)) ∧
    (∀ (header : AttributeHeader) (consumed : Nat),
      (level.decode pool).FailsWith site
          (.record (.sizeMismatch header.name header.offset header.length consumed)) ↔
        EndsEarly pool level site header consumed ∨
          ∃ missing, RunsPast pool level site header missing ∧
            consumed = header.length.toNat + missing) ∧
    (∀ header used, EndsEarly pool level site header used → used < header.length.toNat) ∧
    (∀ header missing, RunsPast pool level site header missing → 1 ≤ missing) ∧
    ∀ header payload, Delimited pool site header payload →
      header.name = AttributeKind.lineNumberTable.name →
        ∃ value, level.decode pool site = (.ok value, site.advance (6 + header.length.toNat)) ∧
          ((∃ rows, Table16 (fun row line ↦ row = LineNumber.encode line) payload.rest rows ∧
              value = .lineNumberTable (.ofRows rows)) ∨
            (∀ rows, ¬ Table16 (fun row line ↦ row = LineNumber.encode line) payload.rest rows) ∧
              value = .unknown header.name payload.rest) := by
  refine ⟨?_, ?_, ?_, ?_, ?_, ?_⟩
  · rw [← exists_isCutShort_iff, exists_comm]
    exact exists_congr fun missing ↦ RecordLevel.failsWith_truncated_iff
  · intro value left h
    exact RecordLevel.delimited_of_decode h
  · intro header consumed
    exact RecordLevel.failsWith_sizeMismatch_iff
  · intro header used h
    exact h.lt
  · intro header missing h
    exact h.one_le
  · intro header payload h named
    exact h.decode_of_lines named

/-- The bytes of a body with a table of exceptions inside that has two rows by its count and none by
its length. -/
def overrunExceptions : List UInt8 :=
  [0, 1, 0, 0, 0, 20, 0, 1, 0, 1, 0, 0, 0, 0, 0, 0, 0, 1, 0, 2, 0, 0, 0, 2, 0, 2]

/-- The inner record is blamed, although the outer payload ends in the same place. -/
theorem runsPast_overrunExceptions :
    (RecordLevel.outer.decode (.ofConstants 3 [.utf8 "Code", .utf8 "Exceptions"])).FailsWith
        ⟨overrunExceptions, 40⟩ (.record (.sizeMismatch "Exceptions" 58 2 4)) ∧
      RunsPast (.ofConstants 3 [.utf8 "Code", .utf8 "Exceptions"]) .outer ⟨overrunExceptions, 40⟩
        ⟨58, "Exceptions", 2⟩ 2 := by
  have hfails : (RecordLevel.outer.decode
      (.ofConstants 3 [.utf8 "Code", .utf8 "Exceptions"])).FailsWith
        ⟨overrunExceptions, 40⟩ (.record (.sizeMismatch "Exceptions" 58 2 4)) := by
    rfl
  obtain ⟨-, -, hmisfit, hearly, -, -⟩ := declared_length_is_authoritative
    (.ofConstants 3 [.utf8 "Code", .utf8 "Exceptions"]) .outer ⟨overrunExceptions, 40⟩
  refine ⟨hfails, ?_⟩
  rcases (hmisfit ⟨58, "Exceptions", 2⟩ 4).mp hfails with h | ⟨missing, hpast, hmissing⟩
  · exact absurd (hearly _ _ h) (by decide)
  · obtain rfl : missing = 2 := by
      have hfour : 4 = 2 + missing := hmissing
      omega
    exact hpast

end MonitorAudit
