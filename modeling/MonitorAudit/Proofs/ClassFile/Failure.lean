import MonitorAudit.Proofs.Bytes.Failure
import MonitorAudit.Proofs.ClassFile.Reach

/-!
# The parts in which a class file fails

The reader of a class goes through the parts of the file one after the other. It fails in the first
that is not there, and what it reports carries the names that it has read by then.
`ClassFile.FailsAt` has one rule for each part, and `ClassFile.parse_eq_error_iff` says that bytes
are refused exactly by these rules.
-/

set_option autoImplicit false

namespace MonitorAudit

open Decoder (failsWith_bind_iff failsWith_mapFault_iff)

namespace Decoder

variable {ε α β : Type} {row : Decoder ε α} {table : Cursor}

/-- A table fails in its number of rows or in one of the rows to which the reader comes. -/
theorem failsWith_counted16_iff {row : Decoder ClassFault α} {fault : ClassFault} :
    (counted16 row).FailsWith table fault ↔
      (u16 : Decoder ClassFault UInt16).FailsWith table fault ∨
        ∃ site, row.ReachesRow table site ∧ row.FailsWith site fault := by
  rw [counted16, failsWith_bind_iff]
  refine or_congr_right ?_
  constructor
  · rintro ⟨count, start, hcount, hrows⟩
    obtain ⟨place, rows, site, hplace, hpassed, hsite⟩ := failsWith_times_iff.mp hrows
    exact ⟨site, ⟨count, start, place, rows, hcount, hplace, hpassed⟩, hsite⟩
  · rintro ⟨site, ⟨count, start, place, rows, hcount, hplace, hpassed⟩, hsite⟩
    exact ⟨count, start, hcount,
      failsWith_times_iff.mpr ⟨place, rows, site, hplace, hpassed, hsite⟩⟩

/-- What begins with a table fails in the number of rows, in a row, or behind the table. -/
theorem failsWith_table_iff {f : ClassFault → ε} {next : List α → Decoder ε β} {fault : ε} :
    ((u16.mapFault f >>= fun count ↦ times count.toNat row >>= next).FailsWith table fault) ↔
      (∃ inner, (u16 : Decoder ClassFault UInt16).FailsWith table inner ∧ f inner = fault) ∨
      (∃ site, row.ReachesRow table site ∧ row.FailsWith site fault) ∨
      ∃ count start rows behind, (u16 : Decoder ClassFault UInt16) table = (.ok count, start) ∧
        times count.toNat row start = (.ok rows, behind) ∧ (next rows).FailsWith behind fault := by
  rw [failsWith_bind_iff, failsWith_mapFault_iff]
  refine or_congr_right ?_
  simp only [mapFault_eq_ok_iff, failsWith_bind_iff]
  constructor
  · rintro ⟨count, start, hcount, hrows | ⟨rows, behind, hrows, hnext⟩⟩
    · obtain ⟨place, rows, site, hplace, hpassed, hsite⟩ := failsWith_times_iff.mp hrows
      exact .inl ⟨site, ⟨count, start, place, rows, hcount, hplace, hpassed⟩, hsite⟩
    · exact .inr ⟨count, start, rows, behind, hcount, hrows, hnext⟩
  · rintro (⟨site, ⟨count, start, place, rows, hcount, hplace, hpassed⟩, hsite⟩ |
      ⟨count, start, rows, behind, hcount, hrows, hnext⟩)
    · exact ⟨count, start, hcount,
        .inl (failsWith_times_iff.mpr ⟨place, rows, site, hplace, hpassed, hsite⟩)⟩
    · exact ⟨count, start, hcount, .inr ⟨rows, behind, hrows, hnext⟩⟩

end Decoder

namespace ClassFile

/-- The reader of a class, given the bytes, fails with the fault. Each rule is about one part of the
file, behind parts that are there, and says which names a fault in that part carries: none in front
of the name of the class and in it, then that of the class, and behind the name of a method up to
the end of its attributes that of the method too. -/
inductive FailsAt (unit : String) (bytes : List UInt8) :
    Option String → Option String → ClassFault → Prop
  | front {fault : ClassFault}
      (failure : ClassHeader.decode.FailsWith (.ofBytes bytes) fault) :
      FailsAt unit bytes none none fault
  | parent {header : ClassHeader} {first : Cursor} {fault : ClassFault}
      (front : ClassHeader.decode (.ofBytes bytes) = (.ok header, first))
      (failure : (decodeSuper header.pool).FailsWith first fault) :
      FailsAt unit bytes (some header.name) none fault
  | interfaces {header : ClassHeader} {parent : UInt16 × Option String} {first second : Cursor}
      {fault : ClassFault} (front : ClassHeader.decode (.ofBytes bytes) = (.ok header, first))
      (super : decodeSuper header.pool first = (.ok parent, second))
      (failure :
        (Decoder.counted16 Decoder.u16 : Decoder ClassFault (List UInt16)).FailsWith second fault) :
      FailsAt unit bytes (some header.name) none fault
  | fieldCount {header : ClassHeader} {fields : Cursor} {fault : ClassFault}
      (start : FieldsAt bytes header fields)
      (failure : (Decoder.u16 : Decoder ClassFault UInt16).FailsWith fields fault) :
      FailsAt unit bytes (some header.name) none fault
  | field {header : ClassHeader} {fields site : Cursor} {fault : ClassFault}
      (start : FieldsAt bytes header fields)
      (row : (Member.decodeField unit header.name header.pool).ReachesRow fields site)
      (failure : (Member.decode header.pool).FailsWith site fault) :
      FailsAt unit bytes (some header.name) none fault
  | methodCount {header : ClassHeader} {fields methods : Cursor} {fault : ClassFault}
      (start : FieldsAt bytes header fields)
      (passed : (Member.decodeField unit header.name header.pool).PassesTable fields methods)
      (failure : (Decoder.u16 : Decoder ClassFault UInt16).FailsWith methods fault) :
      FailsAt unit bytes (some header.name) none fault
  | methodHead {header : ClassHeader} {fields methods site : Cursor} {fault : ClassFault}
      (start : FieldsAt bytes header fields)
      (passed : (Member.decodeField unit header.name header.pool).PassesTable fields methods)
      (row : (Member.decodeMethod unit header.name header.pool).ReachesRow methods site)
      (failure : (Member.decodeHead header.pool).FailsWith site fault) :
      FailsAt unit bytes (some header.name) none fault
  | methodBody {header : ClassHeader} {fields methods site behind : Cursor} {head : Member.Head}
      {fault : ClassFault} (start : FieldsAt bytes header fields)
      (passed : (Member.decodeField unit header.name header.pool).PassesTable fields methods)
      (row : (Member.decodeMethod unit header.name header.pool).ReachesRow methods site)
      (front : Member.decodeHead header.pool site = (.ok head, behind))
      (failure : (Member.decodeBody header.pool head).FailsWith behind fault) :
      FailsAt unit bytes (some header.name) (some head.name) fault
  | attributes {header : ClassHeader} {fields methods table : Cursor} {fault : ClassFault}
      (start : FieldsAt bytes header fields)
      (passed : (Member.decodeField unit header.name header.pool).PassesTable fields methods)
      (passedToo : (Member.decodeMethod unit header.name header.pool).PassesTable methods table)
      (failure : (Attribute.decodeTable header.pool).FailsWith table fault) :
      FailsAt unit bytes (some header.name) none fault

variable {unit : String} {bytes : List UInt8} {header : ClassHeader}

/-- A failure in a method carries the name of the method from the moment that it is known. -/
theorem failsWith_decodeMethod_iff {className : String} {pool : ConstantPool} {site : Cursor}
    {failure : ScanFailure} :
    (Member.decodeMethod unit className pool).FailsWith site failure ↔
      (∃ fault, (Member.decodeHead pool).FailsWith site fault ∧
        failure = ⟨unit, some className, none, fault⟩) ∨
      ∃ head behind fault, Member.decodeHead pool site = (.ok head, behind) ∧
        (Member.decodeBody pool head).FailsWith behind fault ∧
        failure = ⟨unit, some className, some head.name, fault⟩ := by
  rw [Member.decodeMethod, failsWith_bind_iff]
  simp only [failsWith_mapFault_iff, Decoder.mapFault_eq_ok_iff, eq_comm (a := failure)]
  simp

/-- Behind the interfaces only the tables are left to be read. -/
theorem FieldsAt.exists_decode_eq {fields : Cursor} (h : FieldsAt bytes header fields) :
    ∃ parent interfaces, ∀ unit,
      decode unit (.ofBytes bytes) = decodeTables unit header parent interfaces fields := by
  obtain ⟨front, super, indices⟩ := h
  rename_i parent interfaces first second
  refine ⟨parent, interfaces, fun unit ↦ ?_⟩
  have hfront := Decoder.mapFault_eq_ok_iff (f := ScanFailure.mk unit none none) |>.mpr front
  have hsuper :=
    Decoder.mapFault_eq_ok_iff (f := ScanFailure.mk unit header.name none) |>.mpr super
  have hindices :=
    Decoder.mapFault_eq_ok_iff (f := ScanFailure.mk unit header.name none) |>.mpr indices
  rw [decode, Decoder.bind_apply, hfront]
  simp only
  rw [Decoder.bind_apply, hsuper]
  simp only
  rw [Decoder.bind_apply, hindices]
  rfl

/-- The tables fail in one of their numbers of rows or in one of their rows. -/
theorem exists_failsAt_of_tables {fields : Cursor} (start : FieldsAt bytes header fields)
    {parent : UInt16 × Option String} {interfaces : List UInt16} {failure : ScanFailure}
    (h : (decodeTables unit header parent interfaces).FailsWith fields failure) :
    ∃ className? methodName? fault, FailsAt unit bytes className? methodName? fault ∧
      failure = ⟨unit, className?, methodName?, fault⟩ := by
  rcases Decoder.failsWith_table_iff.mp h with ⟨fault, hfault, rfl⟩ | ⟨site, hrow, hsite⟩ |
    ⟨count, first, rows, methods, hcount, hrows, h⟩
  · exact ⟨_, _, fault, .fieldCount start hfault, rfl⟩
  · obtain ⟨fault, hfault, rfl⟩ := failsWith_mapFault_iff.mp hsite
    exact ⟨_, _, fault, .field start hrow hfault, rfl⟩
  have passed : (Member.decodeField unit header.name header.pool).PassesTable fields methods :=
    ⟨count, first, rows, hcount, hrows⟩
  rcases Decoder.failsWith_table_iff.mp h with ⟨fault, hfault, rfl⟩ | ⟨site, hrow, hsite⟩ |
    ⟨count, first, rows, table, hcount, hrows, h⟩
  · exact ⟨_, _, fault, .methodCount start passed hfault, rfl⟩
  · rcases failsWith_decodeMethod_iff.mp hsite with ⟨fault, hfault, rfl⟩ |
      ⟨head, behind, fault, hhead, hfault, rfl⟩
    · exact ⟨_, _, fault, .methodHead start passed hrow hfault, rfl⟩
    · exact ⟨_, _, fault, .methodBody start passed hrow hhead hfault, rfl⟩
  rcases failsWith_bind_iff.mp h with hattributes | ⟨attributes, left, -, hpure⟩
  · obtain ⟨fault, hfault, rfl⟩ := failsWith_mapFault_iff.mp hattributes
    exact ⟨_, _, fault, .attributes start passed ⟨count, first, rows, hcount, hrows⟩ hfault, rfl⟩
  · simp at hpure

theorem exists_failsAt_of_decode {failure : ScanFailure}
    (h : (decode unit).FailsWith (.ofBytes bytes) failure) :
    ∃ className? methodName? fault, FailsAt unit bytes className? methodName? fault ∧
      failure = ⟨unit, className?, methodName?, fault⟩ := by
  rcases failsWith_bind_iff.mp h with hfront | ⟨header, first, hfront, h⟩
  · obtain ⟨fault, hfault, rfl⟩ := failsWith_mapFault_iff.mp hfront
    exact ⟨_, _, fault, .front hfault, rfl⟩
  rw [Decoder.mapFault_eq_ok_iff] at hfront
  rcases failsWith_bind_iff.mp h with hsuper | ⟨parent, second, hsuper, h⟩
  · obtain ⟨fault, hfault, rfl⟩ := failsWith_mapFault_iff.mp hsuper
    exact ⟨_, _, fault, .parent hfront hfault, rfl⟩
  rw [Decoder.mapFault_eq_ok_iff] at hsuper
  rcases failsWith_bind_iff.mp h with hindices | ⟨interfaces, table, hindices, h⟩
  · obtain ⟨fault, hfault, rfl⟩ := failsWith_mapFault_iff.mp hindices
    exact ⟨_, _, fault, .interfaces hfront hsuper hfault, rfl⟩
  rw [Decoder.mapFault_eq_ok_iff] at hindices
  have htables : (decodeTables unit header parent interfaces).FailsWith table failure := h
  exact exists_failsAt_of_tables ⟨hfront, hsuper, hindices⟩ htables

/-- What follows a table that is passed fails behind it. -/
theorem failsWith_of_passesTable {ε α β : Type} {row : Decoder ε α} {f : ClassFault → ε}
    {next : List α → Decoder ε β} {table behind : Cursor} {fault : ε}
    (h : row.PassesTable table behind) (hnext : ∀ rows, (next rows).FailsWith behind fault) :
    (Decoder.u16.mapFault f >>= fun count ↦
      Decoder.times count.toNat row >>= next).FailsWith table fault := by
  obtain ⟨count, start, rows, hcount, hrows⟩ := h
  exact Decoder.failsWith_table_iff.mpr
    (.inr (.inr ⟨count, start, rows, behind, hcount, hrows, hnext rows⟩))

theorem FailsAt.failsWith_decode {className? methodName? : Option String} {fault : ClassFault}
    (h : FailsAt unit bytes className? methodName? fault) :
    (decode unit).FailsWith (.ofBytes bytes) ⟨unit, className?, methodName?, fault⟩ := by
  have hread {ε φ α : Type} {decoder : Decoder ε α} {cursor left : Cursor} {value : α}
      (h : decoder cursor = (.ok value, left)) (f : ε → φ) :
      decoder.mapFault f cursor = (.ok value, left) := Decoder.mapFault_eq_ok_iff.mpr h
  cases h with
  | front failure =>
    exact failsWith_bind_iff.mpr (.inl (failsWith_mapFault_iff.mpr ⟨fault, failure, rfl⟩))
  | parent front failure =>
    refine failsWith_bind_iff.mpr (.inr ⟨_, _, hread front _, ?_⟩)
    exact failsWith_bind_iff.mpr (.inl (failsWith_mapFault_iff.mpr ⟨fault, failure, rfl⟩))
  | interfaces front super failure =>
    refine failsWith_bind_iff.mpr (.inr ⟨_, _, hread front _, ?_⟩)
    refine failsWith_bind_iff.mpr (.inr ⟨_, _, hread super _, ?_⟩)
    exact failsWith_bind_iff.mpr (.inl (failsWith_mapFault_iff.mpr ⟨fault, failure, rfl⟩))
  | fieldCount start failure =>
    obtain ⟨parent, interfaces, hdecode⟩ := start.exists_decode_eq
    rw [Decoder.FailsWith, hdecode]
    exact Decoder.failsWith_table_iff.mpr (.inl ⟨fault, failure, rfl⟩)
  | field start row failure =>
    obtain ⟨parent, interfaces, hdecode⟩ := start.exists_decode_eq
    rw [Decoder.FailsWith, hdecode]
    exact Decoder.failsWith_table_iff.mpr
      (.inr (.inl ⟨_, row, failsWith_mapFault_iff.mpr ⟨fault, failure, rfl⟩⟩))
  | methodCount start passed failure =>
    obtain ⟨parent, interfaces, hdecode⟩ := start.exists_decode_eq
    rw [Decoder.FailsWith, hdecode]
    exact failsWith_of_passesTable passed fun _ ↦
      Decoder.failsWith_table_iff.mpr (.inl ⟨fault, failure, rfl⟩)
  | methodHead start passed row failure =>
    obtain ⟨parent, interfaces, hdecode⟩ := start.exists_decode_eq
    rw [Decoder.FailsWith, hdecode]
    exact failsWith_of_passesTable passed fun _ ↦ Decoder.failsWith_table_iff.mpr
      (.inr (.inl ⟨_, row, failsWith_decodeMethod_iff.mpr (.inl ⟨fault, failure, rfl⟩)⟩))
  | methodBody start passed row front failure =>
    obtain ⟨parent, interfaces, hdecode⟩ := start.exists_decode_eq
    rw [Decoder.FailsWith, hdecode]
    exact failsWith_of_passesTable passed fun _ ↦ Decoder.failsWith_table_iff.mpr
      (.inr (.inl ⟨_, row, failsWith_decodeMethod_iff.mpr
        (.inr ⟨_, _, fault, front, failure, rfl⟩)⟩))
  | attributes start passed passedToo failure =>
    obtain ⟨parent, interfaces, hdecode⟩ := start.exists_decode_eq
    rw [Decoder.FailsWith, hdecode]
    exact failsWith_of_passesTable passed fun _ ↦ failsWith_of_passesTable passedToo fun _ ↦
      failsWith_bind_iff.mpr (.inl (failsWith_mapFault_iff.mpr ⟨fault, failure, rfl⟩))

/-- Bytes are no class file exactly where one of the parts fails, with the names that are known by
then. -/
theorem parse_eq_error_iff (failure : ScanFailure) :
    parse unit bytes = .error failure ↔
      failure.unit = unit ∧
        FailsAt unit bytes failure.className? failure.methodName? failure.fault := by
  constructor
  · intro h
    obtain ⟨className?, methodName?, fault, hfails, rfl⟩ := exists_failsAt_of_decode h
    exact ⟨rfl, hfails⟩
  · rintro ⟨rfl, hfails⟩
    exact hfails.failsWith_decode

/-- A class cannot be compared with another, but a failure can with a failure. -/
theorem parse_eq_error_of_map {failure : ScanFailure}
    (h : (parse unit bytes).map (fun _ ↦ ()) = .error failure) :
    parse unit bytes = .error failure := by
  cases hparse : parse unit bytes with
  | ok classFile => simp [hparse, Except.map] at h
  | error found => simpa [hparse, Except.map] using h

end ClassFile

end MonitorAudit
