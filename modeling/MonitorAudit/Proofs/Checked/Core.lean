import MonitorAudit.Proofs.Checked.Audit

/-!
# No operation of the core fails

`Reader.Derived` are the readers that are made from one at the start of some bytes by taking bytes
and by splitting windows off. The index of each is in its buffer (`Reader.Derived.isValid`), which
is all that the readings of this directory ask for.

`Checked.no_operation_fails` says of the core as a whole that its parts with machine arithmetic have
the results of the parts without it, so that none of their operations fails.
-/

set_option autoImplicit false

namespace MonitorAudit

/-- The readers that are made from one at the start of some bytes. -/
inductive Reader.Derived (bytes : List UInt8) : Reader → Prop
  | start : Derived bytes (ofBytes bytes)
  | take {reader later : Reader} {count : Nat} {outcome : Except EndOfData (List UInt8)}
      (derived : Derived bytes reader) (took : reader.take? count = some (outcome, later)) :
      Derived bytes later
  | window {reader payload later : Reader} {count : Nat} (derived : Derived bytes reader)
      (split : (Checked.window count : Checked EndOfData Reader) reader =
        some (.ok payload, later)) :
      Derived bytes payload

/-- The reader behind bytes that were asked for has its index in its buffer. -/
theorem Reader.IsValid.of_take? {reader later : Reader} (h : reader.IsValid) {count : Nat}
    {outcome : Except EndOfData (List UInt8)} (took : reader.take? count = some (outcome, later)) :
    later.IsValid := by
  by_cases hthere : count ≤ reader.cursor.remaining
  · rw [h.take?_of_le hthere] at took
    cases took
    exact (h.follows_advance hthere).isValid h
  · rw [h.take?_of_lt (Nat.lt_of_not_le hthere)] at took
    cases took
    exact h

/-- So has a reader that was split off. -/
theorem Reader.IsValid.of_window {reader payload later : Reader} (h : reader.IsValid) {count : Nat}
    (split : (Checked.window count : Checked EndOfData Reader) reader =
      some (.ok payload, later)) : payload.IsValid := by
  rw [Checked.window, Checked.bind_apply, Checked.position, h.position?_eq, Option.map_some]
    at split
  simp only [Checked.bind_apply, Checked.take] at split
  by_cases hthere : count ≤ reader.cursor.remaining
  · rw [h.take?_of_le hthere] at split
    cases split
    exact h.window hthere
  · rw [h.take?_of_lt (Nat.lt_of_not_le hthere)] at split
    cases split

theorem Reader.Derived.isValid {bytes : List UInt8} (hbytes : bytes.length < 2 ^ 63)
    {reader : Reader} (h : Derived bytes reader) : reader.IsValid := by
  induction h with
  | start => exact isValid_ofBytes hbytes
  | take derived took ih => exact ih.of_take? took
  | window derived split ih => exact ih.of_window split

/-- Bytes can be asked for in any number. -/
theorem Reader.IsValid.take?_ne_none {reader : Reader} (h : reader.IsValid) (count : Nat) :
    reader.take? count ≠ none := by
  by_cases hthere : count ≤ reader.cursor.remaining
  · rw [h.take?_of_le hthere]
    exact Option.some_ne_none _
  · rw [h.take?_of_lt (Nat.lt_of_not_le hthere)]
    exact Option.some_ne_none _

/-- No operation of the core fails: no sum or difference of numbers of a fixed width, no cut or
look-up in a buffer, and no place is reached that is not meant to be. What is read, resolved or
found with them is what is read, resolved or found without. The look-ups of a pool by index and kind
(`ConstantPool.get?`, `ConstantPool.resolve?`) have no operation that could fail. -/
theorem Checked.no_operation_fails :
    (∀ bytes : List UInt8, bytes.length < 2 ^ 63 → ∀ reader, Reader.Derived bytes reader →
      (reader.position? = some reader.cursor.position ∧
        reader.remaining? = some reader.cursor.remaining ∧
        reader.isEmpty? = some reader.cursor.isEmpty ∧ reader.rest? = some reader.cursor.rest ∧
        ∀ count, reader.take? count ≠ none) ∧
      ConstantPool.checked.run? reader = some (ConstantPool.decode reader.cursor).1 ∧
      ∀ pool,
        (Attribute.checked pool).run? reader = some (Attribute.decode pool reader.cursor).1 ∧
        (Attribute.checkedTable pool).run? reader =
          some (Attribute.decodeTable pool reader.cursor).1) ∧
    (∀ bytes : List UInt8, bytes.length < 2 ^ 63 →
      ModifiedUtf8.checkedDecode bytes = some (ModifiedUtf8.decode bytes) ∧
      ∀ unit,
        ClassFile.checkedParse unit bytes = some (ClassFile.parse unit bytes) ∧
        Audit.checkedAuditBytes unit bytes = some (Audit.auditBytes unit bytes)) ∧
    (∀ (pool : ConstantPool) (index : UInt16),
      pool.checkedUtf8? index = some (pool.utf8? index) ∧
      pool.checkedClassName? index = some (pool.className? index) ∧
      pool.checkedNameAndType? index = some (pool.nameAndType? index)) ∧
    (∀ cursor pool left, ConstantPool.decode cursor = (.ok pool, left) →
      pool.checkedEntries? = some pool.entries) ∧
    (∀ code : List UInt8, code.length < 2 ^ 32 →
      Instruction.checkedItems? code = some (Instruction.items code) ∧
      Instruction.checkedDecodeAll? code = some (Instruction.decodeAll code) ∧
      ∀ instruction, .ok instruction ∈ Instruction.items code →
        instruction.checkedNextOffset? = some instruction.nextOffset) ∧
    ∀ (table : LineNumberTable) (offset : Nat),
      table.checkedLineFor? offset = some (table.lineFor? offset) := by
  refine ⟨?_, ?_, ?_, ?_, ?_, ?_⟩
  · intro bytes hbytes reader hderived
    have hreader := hderived.isValid hbytes
    refine ⟨?_, ConstantPool.agrees_checked.run?_eq hreader, fun pool ↦ ⟨?_, ?_⟩⟩
    · exact ⟨hreader.position?_eq, hreader.remaining?_eq, hreader.isEmpty?_eq, hreader.rest?_eq,
        hreader.take?_ne_none⟩
    · exact (Attribute.agrees_checked pool).run?_eq hreader
    · exact (Attribute.agrees_checkedTable pool).run?_eq hreader
  · intro bytes hbytes
    exact ⟨ModifiedUtf8.checkedDecode_eq hbytes, fun unit ↦
      ⟨ClassFile.checkedParse_eq unit hbytes, Audit.checkedAuditBytes_eq unit hbytes⟩⟩
  · intro pool index
    exact ⟨pool.checkedUtf8?_eq index, pool.checkedClassName?_eq index,
      pool.checkedNameAndType?_eq index⟩
  · intro cursor pool left hpool
    exact ConstantPool.checkedEntries?_eq (ConstantPool.size_slots_lt hpool)
  · intro code hcode
    exact ⟨Instruction.checkedItems?_eq hcode, Instruction.checkedDecodeAll?_eq hcode,
      fun _ hinstruction ↦ Instruction.checkedNextOffset?_eq hcode hinstruction⟩
  · exact LineNumberTable.checkedLineFor?_eq

end MonitorAudit
