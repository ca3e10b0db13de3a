import MonitorAudit.Proofs.ClassFile.PoolLayout

/-!
# The indices of a constant pool

A `PoolEntry` is a constant as a class file spells it: a text by its bytes, and any other constant
by its value. `slotOf constants place` is the index of the constant in a place of a list: one more
than the slots of those in front of it.

`ConstantPool.Indexes` says what a pool of given constants answers for every index and every kind.
`ConstantPool.decode_entries` says that a pool is read from the bytes of its entries and indexes
their constants, where the declared count is one more than the slots that they take, or one less
than that where the last of them is wide.
-/

set_option autoImplicit false

namespace MonitorAudit

/-! ### Entries and their bytes -/

/-- A constant as it is spelled: a text of bytes, or a constant of another kind by its value. -/
inductive PoolEntry where
  | text (bytes : List UInt8) (fits : bytes.length < 2 ^ 16)
  | plain (constant : Constant) (notText : constant.kind ≠ .utf8)

namespace PoolEntry

/-- The constant that an entry spells. -/
def constant : PoolEntry → Constant
  | text bytes _ => .utf8 (ModifiedUtf8.decode bytes)
  | plain constant _ => constant

/-- The bytes of an entry behind its tag. -/
def fields : PoolEntry → List UInt8
  | text bytes _ => word16 (UInt16.ofNat bytes.length) ++ bytes
  | plain (.utf8 _) notText => absurd rfl notText
  | plain (.integer value) _ => signed32 value
  | plain (.float bits) _ => word32 bits
  | plain (.long value) _ => signed64 value
  | plain (.double bits) _ => word64 bits
  | plain (.classRef name) _ => word16 name
  | plain (.string content) _ => word16 content
  | plain (.fieldRef owner member) _ => word16 owner ++ word16 member
  | plain (.methodRef owner member) _ => word16 owner ++ word16 member
  | plain (.interfaceMethodRef owner member) _ => word16 owner ++ word16 member
  | plain (.nameAndType name descriptor) _ => word16 name ++ word16 descriptor
  | plain (.methodHandle referenceKind reference) _ => referenceKind :: word16 reference
  | plain (.methodType descriptor) _ => word16 descriptor
  | plain (.dynamic bootstrap member) _ => word16 bootstrap ++ word16 member
  | plain (.invokeDynamic bootstrap member) _ => word16 bootstrap ++ word16 member
  | plain (.moduleRef name) _ => word16 name
  | plain (.packageRef name) _ => word16 name

/-- The bytes of an entry: the tag of its kind and its fields. -/
def encode (entry : PoolEntry) : List UInt8 := entry.constant.kind.tag :: entry.fields

theorem constantFields (entry : PoolEntry) :
    ConstantFields entry.constant.kind entry.fields entry.constant := by
  cases entry with
  | text bytes fits => exact .utf8 (UInt16.toNat_ofNat_of_lt' fits).symm
  | plain constant notText =>
    cases constant with
    | utf8 text => exact absurd rfl notText
    | _ => constructor

theorem constantBytes (entry : PoolEntry) : ConstantBytes entry.encode entry.constant :=
  .intro entry.constantFields

end PoolEntry

/-! ### Slots of constants -/

/-- The number of slots that constants take. -/
def slotCount : List Constant → Nat
  | [] => 0
  | constant :: constants => constant.width + slotCount constants

/-- The index of the constant in a place of a list. -/
def slotOf (constants : List Constant) (place : Nat) : Nat := 1 + slotCount (constants.take place)

@[simp] theorem slotCount_nil : slotCount [] = 0 := rfl

@[simp] theorem slotCount_cons (constant : Constant) (constants : List Constant) :
    slotCount (constant :: constants) = constant.width + slotCount constants := rfl

theorem slotCount_append (constants more : List Constant) :
    slotCount (constants ++ more) = slotCount constants + slotCount more := by
  induction constants with
  | nil => simp
  | cons constant constants ih => rw [List.cons_append, slotCount_cons, slotCount_cons, ih,
      Nat.add_assoc]

theorem slotCount_take_succ (constants : List Constant) {place : Nat}
    (h : place < constants.length) :
    slotCount (constants.take (place + 1)) =
      slotCount (constants.take place) + constants[place].width := by
  rw [List.take_succ_eq_append_getElem h, slotCount_append, slotCount_cons, slotCount_nil,
    Nat.add_zero]

theorem slotCount_take_le (constants : List Constant) (place : Nat) :
    slotCount (constants.take place) ≤ slotCount constants := by
  have hsplit := slotCount_append (constants.take place) (constants.drop place)
  rw [List.take_append_drop] at hsplit
  omega

/-- Behind a constant the next ones have slots behind its own. -/
theorem slotOf_add_width_le (constants : List Constant) {place later : Nat}
    (hlater : place < later) (hplace : place < constants.length) :
    slotOf constants place + constants[place].width ≤ slotOf constants later := by
  have htake : (constants.take later).take (place + 1) = constants.take (place + 1) := by
    rw [List.take_take, Nat.min_eq_left hlater]
  have hle := slotCount_take_le (constants.take later) (place + 1)
  rw [htake, slotCount_take_succ constants hplace] at hle
  rw [slotOf, slotOf]
  omega

theorem slotOf_length (constants : List Constant) :
    slotOf constants constants.length = 1 + slotCount constants := by
  rw [slotOf, List.take_length]

/-- Each slot of constants in a row is the first or, where it is wide, the second slot of one. -/
theorem exists_place_of_lt_slotCount {constants : List Constant} {slot : Nat}
    (h : slot < slotCount constants) :
    ∃ place, ∃ hplace : place < constants.length,
      slot = slotCount (constants.take place) ∨
        constants[place].isWide = true ∧ slot = slotCount (constants.take place) + 1 := by
  induction constants generalizing slot with
  | nil => simp at h
  | cons first rest ih =>
    rw [slotCount_cons] at h
    by_cases hslot : slot < first.width
    · refine ⟨0, Nat.zero_lt_succ _, ?_⟩
      unfold Constant.width at hslot
      split at hslot
      · rename_i hwide
        match slot, hslot with
        | 0, _ => exact .inl rfl
        | 1, _ => exact .inr ⟨hwide, rfl⟩
      · exact .inl (Nat.lt_one_iff.mp hslot)
    · obtain ⟨place, hplace, hfound⟩ := ih (show slot - first.width < slotCount rest by omega)
      refine ⟨place + 1, Nat.succ_lt_succ hplace, ?_⟩
      rw [List.take_succ_cons, slotCount_cons]
      rcases hfound with hfirst | ⟨hwide, hsecond⟩
      · exact .inl (by omega)
      · exact .inr ⟨hwide, by omega⟩

/-- A constant stands in the first of its slots, and nothing in the second. -/
theorem getElem?_slots_eq_some_some_iff (first : Constant) (slot : Nat) (constant : Constant) :
    first.slots[slot]? = some (some constant) ↔ slot = 0 ∧ first = constant := by
  unfold Constant.slots
  split
  · match slot with
    | 0 => simp
    | 1 => simp
    | _ + 2 => simp
  · match slot with
    | 0 => simp
    | _ + 1 => simp

/-- A slot of constants in a row holds one of them exactly if it is its first slot. -/
theorem getElem?_flatMap_slots (constants : List Constant) (slot : Nat) (constant : Constant) :
    (constants.flatMap Constant.slots)[slot]? = some (some constant) ↔
      ∃ place, ∃ h : place < constants.length,
        slot = slotCount (constants.take place) ∧ constants[place] = constant := by
  induction constants generalizing slot with
  | nil => simp
  | cons first rest ih =>
    rw [List.flatMap_cons]
    by_cases hslot : slot < first.width
    · rw [List.getElem?_append_left (by rwa [Constant.length_slots]),
        getElem?_slots_eq_some_some_iff]
      constructor
      · rintro ⟨rfl, rfl⟩
        exact ⟨0, Nat.zero_lt_succ _, rfl, rfl⟩
      · rintro ⟨place, hplace, hslots, hconstant⟩
        cases place with
        | zero => exact ⟨hslots, hconstant⟩
        | succ place =>
          rw [List.take_succ_cons, slotCount_cons] at hslots
          omega
    · rw [List.getElem?_append_right (by rw [Constant.length_slots]; omega), ih,
        Constant.length_slots]
      constructor
      · rintro ⟨place, hplace, hslots, hconstant⟩
        refine ⟨place + 1, Nat.succ_lt_succ hplace, ?_, hconstant⟩
        rw [List.take_succ_cons, slotCount_cons]
        omega
      · rintro ⟨place, hplace, hslots, hconstant⟩
        cases place with
        | zero =>
          have hwidth := first.one_le_width
          rw [List.take_zero, slotCount_nil] at hslots
          omega
        | succ place =>
          rw [List.take_succ_cons, slotCount_cons] at hslots
          exact ⟨place, Nat.lt_of_succ_lt_succ hplace, by omega, hconstant⟩

/-- The constants in a row with their indices, which count from the given one on. -/
theorem filterMap_zipIdx_slots (constants : List Constant) (start : Nat) :
    ((constants.flatMap Constant.slots).zipIdx start).filterMap
        (fun (slot, index) ↦ slot.map fun constant ↦ (UInt16.ofNat index, constant)) =
      constants.mapIdx fun place constant ↦
        (UInt16.ofNat (start + slotCount (constants.take place)), constant) := by
  induction constants generalizing start with
  | nil => rfl
  | cons first rest ih =>
    rw [List.flatMap_cons, List.zipIdx_append, List.filterMap_append, ih, Constant.length_slots,
      List.mapIdx_cons]
    have hfirst : (first.slots.zipIdx start).filterMap
        (fun (slot, index) ↦ slot.map fun constant ↦ (UInt16.ofNat index, constant)) =
          [(UInt16.ofNat start, first)] := by
      unfold Constant.slots
      split <;> rfl
    rw [hfirst]
    simp [Nat.add_assoc]

/-! ### Counts that fit -/

/-- Constants start below a count, and their slots reach up to it. -/
def CountFits (count : Nat) (constants : List Constant) : Prop :=
  (∀ place < constants.length, slotOf constants place < count) ∧ count ≤ 1 + slotCount constants

/-- A count fits that is one more than the slots of the constants, or one less than that where the
last constant is wide. -/
theorem countFits_of {count : Nat} {constants : List Constant}
    (h : count = 1 + slotCount constants ∨
      count = slotCount constants ∧ ∃ last ∈ constants.getLast?, last.isWide) :
    CountFits count constants := by
  have hbelow {place : Nat} (hplace : place < constants.length) :
      slotOf constants place + constants[place].width ≤ 1 + slotCount constants := by
    rw [← slotOf_length]
    exact slotOf_add_width_le constants hplace hplace
  rcases h with rfl | ⟨rfl, last, hlast, hwide⟩
  · refine ⟨fun place hplace ↦ ?_, Nat.le_refl _⟩
    have hwidth := constants[place].one_le_width
    have hend := hbelow hplace
    omega
  · refine ⟨fun place hplace ↦ ?_, Nat.le_add_left _ _⟩
    have hwidth := constants[place].one_le_width
    by_cases hend : place + 1 = constants.length
    · -- The last constant has a slot to spare.
      have hfound : constants[place] = last := by
        rw [Option.mem_def, List.getLast?_eq_getElem?, ← hend, Nat.add_sub_cancel,
          List.getElem?_eq_getElem hplace] at hlast
        exact Option.some.inj hlast
      have htwo : constants[place].width = 2 := by rw [hfound, Constant.width, if_pos hwide]
      have hend := hbelow hplace
      omega
    · have hnext : place + 1 < constants.length := by omega
      have hstep := slotOf_add_width_le constants (Nat.lt_add_one place) hplace
      have hwidth' := constants[place + 1].one_le_width
      have hend := hbelow hnext
      omega

/-- The entries of constants that a count fits fill its slots. -/
theorem fillsSlots_entries {count index : Nat} (entries : List PoolEntry)
    (hstart : ∀ place < entries.length,
      index + slotCount ((entries.map PoolEntry.constant).take place) < count)
    (hend : count ≤ index + slotCount (entries.map PoolEntry.constant)) :
    FillsSlots count index (entries.flatMap PoolEntry.encode)
      (entries.map PoolEntry.constant) := by
  induction entries generalizing index with
  | nil => exact .full hend
  | cons entry entries ih =>
    rw [List.flatMap_cons, List.map_cons]
    refine .next (hstart 0 (Nat.zero_lt_succ _)) entry.constantBytes (ih ?_ ?_)
    · intro place hplace
      have hlater := hstart (place + 1) (Nat.succ_lt_succ hplace)
      rw [List.map_cons, List.take_succ_cons, slotCount_cons] at hlater
      omega
    · rw [List.map_cons, slotCount_cons] at hend
      omega

namespace ConstantPool

/-- What the pool of given constants answers for each index and each kind. -/
structure Indexes (pool : ConstantPool) (constants : List Constant) : Prop where
  /-- A constant is found at its first slot. -/
  get?_eq_ok_iff : ∀ index constant, pool.get? index = .ok constant ↔
    ∃ place, ∃ h : place < constants.length,
      index.toNat = slotOf constants place ∧ constants[place] = constant
  /-- Nothing is found at zero, at the second slot of a wide constant, and from the count on. -/
  get?_eq_error_iff : ∀ index fault, pool.get? index = .error fault ↔
    fault = .badIndex index pool.count ∧
      (index = 0 ∨
        (∃ place, ∃ h : place < constants.length,
          constants[place].isWide = true ∧ index.toNat = slotOf constants place + 1) ∨
        pool.count ≤ index)
  /-- The constants are listed with their indices. -/
  entries_eq : pool.entries =
    constants.mapIdx fun place constant ↦ (UInt16.ofNat (slotOf constants place), constant)
  /-- The indices of the list increase. -/
  entries_increase : pool.entries.Pairwise fun first second ↦ first.1 < second.1
  /-- A constant of the wanted kind is answered. -/
  resolve?_eq_ok_iff : ∀ index kind constant, pool.resolve? index kind = .ok constant ↔
    pool.get? index = .ok constant ∧ constant.kind = kind
  /-- A constant of another kind is refused by its kind. -/
  resolve?_eq_typeMismatch_iff : ∀ index kind found,
    pool.resolve? index kind = .error (.typeMismatch index kind found) ↔
      ∃ constant, pool.get? index = .ok constant ∧ constant.kind = found ∧ found ≠ kind
  /-- Where nothing is found, that is the answer. -/
  resolve?_eq_badIndex_iff : ∀ index kind,
    pool.resolve? index kind = .error (.badIndex index pool.count) ↔
      pool.get? index = .error (.badIndex index pool.count)

section

variable {count : UInt16} {constants : List Constant}

/-- A slot of a pool whose count fits its constants holds one of them exactly if it is its first
slot. -/
theorem getElem?_slots_ofConstants (hfits : CountFits count.toNat constants) (slot : Nat)
    (constant : Constant) :
    (ofConstants count constants).slots[slot]? = some (some constant) ↔
      ∃ place, ∃ h : place < constants.length,
        slot = slotOf constants place ∧ constants[place] = constant := by
  rw [ofConstants, List.getElem?_toArray, List.getElem?_take]
  cases slot with
  | zero =>
    have hnone : ¬ ∃ place, ∃ h : place < constants.length,
        0 = slotOf constants place ∧ constants[place] = constant := by
      rintro ⟨place, -, hslot, -⟩
      rw [slotOf] at hslot
      omega
    exact iff_of_false (by simp) hnone
  | succ slot =>
    rw [List.getElem?_cons_succ]
    constructor
    · intro h
      split at h
      · obtain ⟨place, hplace, hslot, hconstant⟩ := (getElem?_flatMap_slots _ _ _).mp h
        exact ⟨place, hplace, by rw [slotOf]; omega, hconstant⟩
      · simp at h
    · rintro ⟨place, hplace, hslot, hconstant⟩
      have hbelow := hfits.1 place hplace
      rw [if_pos (by omega), getElem?_flatMap_slots]
      exact ⟨place, hplace, by rw [slotOf] at hslot; omega, hconstant⟩

theorem get?_eq_ok_iff_slots (pool : ConstantPool) (index : UInt16) (constant : Constant) :
    pool.get? index = .ok constant ↔ pool.slots[index.toNat]? = some (some constant) := by
  unfold get?
  split
  · rename_i found hfound
    simp [hfound]
  · rename_i hnone
    simpa using fun h ↦ hnone constant h

theorem get?_eq_error_iff_slots (pool : ConstantPool) (index : UInt16) (fault : PoolFault) :
    pool.get? index = .error fault ↔
      fault = .badIndex index pool.count ∧ ∀ constant, pool.get? index ≠ .ok constant := by
  unfold get?
  split
  · simp
  · simp [eq_comm]

theorem resolve?_eq_ok_iff_get? (pool : ConstantPool) (index : UInt16) (kind : ConstantKind)
    (constant : Constant) :
    pool.resolve? index kind = .ok constant ↔
      pool.get? index = .ok constant ∧ constant.kind = kind := by
  rw [resolve?]
  cases pool.get? index with
  | error fault => simp [bind, Except.bind]
  | ok found =>
    simp only [bind, Except.bind]
    split
    · rename_i hkind
      constructor
      · intro h
        obtain rfl := Except.ok.inj h
        exact ⟨rfl, hkind⟩
      · exact fun h ↦ h.1
    · rename_i hkind
      refine iff_of_false (by simp) fun h ↦ hkind ?_
      rw [Except.ok.inj h.1, h.2]

theorem resolve?_eq_typeMismatch_iff_get? (pool : ConstantPool) (index : UInt16)
    (kind found : ConstantKind) :
    pool.resolve? index kind = .error (.typeMismatch index kind found) ↔
      ∃ constant, pool.get? index = .ok constant ∧ constant.kind = found ∧ found ≠ kind := by
  rw [resolve?]
  cases hget : pool.get? index with
  | error fault =>
    have hfault := ((get?_eq_error_iff_slots pool index fault).mp hget).1
    simp [bind, Except.bind, hfault]
  | ok constant =>
    simp only [bind, Except.bind]
    split
    · rename_i hkind
      simp [hkind, eq_comm]
    · rename_i hkind
      constructor
      · intro h
        obtain ⟨-, -, rfl⟩ := PoolFault.typeMismatch.inj (Except.error.inj h)
        exact ⟨constant, rfl, rfl, hkind⟩
      · rintro ⟨other, hother, rfl, -⟩
        rw [Except.ok.inj hother]

theorem resolve?_eq_badIndex_iff_get? (pool : ConstantPool) (index : UInt16)
    (kind : ConstantKind) :
    pool.resolve? index kind = .error (.badIndex index pool.count) ↔
      pool.get? index = .error (.badIndex index pool.count) := by
  rw [resolve?]
  cases pool.get? index with
  | error fault => simp [bind, Except.bind]
  | ok constant =>
    simp only [bind, Except.bind]
    split <;> simp

theorem get?_ofConstants_eq_ok_iff (hfits : CountFits count.toNat constants) (index : UInt16)
    (constant : Constant) :
    (ofConstants count constants).get? index = .ok constant ↔
      ∃ place, ∃ h : place < constants.length,
        index.toNat = slotOf constants place ∧ constants[place] = constant := by
  rw [get?_eq_ok_iff_slots, getElem?_slots_ofConstants hfits]

/-- Constants are found at no index but their first slots. -/
theorem get?_ofConstants_eq_error_iff (hfits : CountFits count.toNat constants) (index : UInt16)
    (fault : PoolFault) :
    (ofConstants count constants).get? index = .error fault ↔
      fault = .badIndex index count ∧
        (index = 0 ∨
          (∃ place, ∃ h : place < constants.length,
            constants[place].isWide = true ∧ index.toNat = slotOf constants place + 1) ∨
          count ≤ index) := by
  rw [get?_eq_error_iff_slots]
  refine and_congr_right fun _ ↦ ?_
  have hzero : index = 0 ↔ index.toNat = 0 := UInt16.toNat_inj.symm
  rw [hzero, UInt16.le_iff_toNat_le]
  constructor
  · intro hnone
    by_cases hbelow : count.toNat ≤ index.toNat
    · exact .inr (.inr hbelow)
    · by_cases hfirst : index.toNat = 0
      · exact .inl hfirst
      · have hend := hfits.2
        obtain ⟨place, hplace, hslot | ⟨hwide, hslot⟩⟩ :=
          exists_place_of_lt_slotCount (show index.toNat - 1 < slotCount constants by omega)
        · refine absurd ((get?_ofConstants_eq_ok_iff hfits index constants[place]).mpr
            ⟨place, hplace, ?_, rfl⟩) (hnone _)
          rw [slotOf]
          omega
        · refine .inr (.inl ⟨place, hplace, hwide, ?_⟩)
          rw [slotOf]
          omega
  · intro hindex constant hfound
    obtain ⟨place, hplace, hslot, -⟩ := (get?_ofConstants_eq_ok_iff hfits index constant).mp hfound
    have hbelow := hfits.1 place hplace
    rcases hindex with hindex | ⟨other, hother, hwide, hindex⟩ | hindex
    · rw [slotOf] at hslot
      omega
    · have htwo : constants[other].width = 2 := by rw [Constant.width, if_pos hwide]
      rcases Nat.lt_trichotomy place other with hlt | rfl | hlt
      · have hle := slotOf_add_width_le constants hlt hplace
        omega
      · omega
      · have hle := slotOf_add_width_le constants hlt hother
        omega
    · omega

/-- No constant has its first slot cut off. -/
theorem filterMap_cut_slots (hfits : CountFits count.toNat constants) (start : Nat) :
    ((((constants.flatMap Constant.slots).drop (max count.toNat 1 - 1)).zipIdx start).filterMap
      fun (slot, index) ↦ slot.map fun constant ↦ (UInt16.ofNat index, constant)) = [] := by
  rw [List.filterMap_eq_nil_iff]
  rintro ⟨slot, index⟩ hslot
  have hmem : slot ∈ (constants.flatMap Constant.slots).drop (max count.toNat 1 - 1) :=
    List.fst_mem_of_mem_zipIdx hslot
  obtain ⟨behind, hbehind⟩ := List.getElem?_of_mem hmem
  rw [List.getElem?_drop] at hbehind
  cases slot with
  | none => rfl
  | some constant =>
    obtain ⟨place, hplace, hfirst, -⟩ := (getElem?_flatMap_slots _ _ _).mp hbehind
    have hbelow := hfits.1 place hplace
    rw [slotOf] at hbelow
    omega

theorem entries_ofConstants (hfits : CountFits count.toNat constants) :
    (ofConstants count constants).entries =
      constants.mapIdx fun place constant ↦ (UInt16.ofNat (slotOf constants place), constant) := by
  have hlist := filterMap_zipIdx_slots constants 1
  rw [← List.take_append_drop (max count.toNat 1 - 1) (constants.flatMap Constant.slots),
    List.zipIdx_append, List.filterMap_append, filterMap_cut_slots hfits, List.append_nil] at hlist
  have htake : (none :: constants.flatMap Constant.slots).take (max count.toNat 1) =
      none :: (constants.flatMap Constant.slots).take (max count.toNat 1 - 1) :=
    List.take_cons (by omega)
  rw [entries, ofConstants, List.toList_toArray, htake, List.zipIdx_cons, List.filterMap_cons]
  exact hlist

theorem entries_ofConstants_increase (hfits : CountFits count.toNat constants) :
    (ofConstants count constants).entries.Pairwise fun first second ↦ first.1 < second.1 := by
  rw [entries_ofConstants hfits, List.pairwise_iff_getElem]
  intro place later hplace hlater hlt
  rw [List.length_mapIdx] at hplace hlater
  have hword {place : Nat} (h : place < constants.length) :
      (UInt16.ofNat (slotOf constants place)).toNat = slotOf constants place :=
    UInt16.toNat_ofNat_of_lt' (Nat.lt_trans (hfits.1 place h) count.toNat_lt)
  have hstep := slotOf_add_width_le constants hlt hplace
  have hwidth := constants[place].one_le_width
  rw [List.getElem_mapIdx, List.getElem_mapIdx, UInt16.lt_iff_toNat_lt, hword hplace, hword hlater]
  omega

/-- The pool of constants that its count fits indexes them. -/
theorem indexes_ofConstants (hfits : CountFits count.toNat constants) :
    (ofConstants count constants).Indexes constants where
  get?_eq_ok_iff := get?_ofConstants_eq_ok_iff hfits
  get?_eq_error_iff := get?_ofConstants_eq_error_iff hfits
  entries_eq := entries_ofConstants hfits
  entries_increase := entries_ofConstants_increase hfits
  resolve?_eq_ok_iff := resolve?_eq_ok_iff_get? _
  resolve?_eq_typeMismatch_iff := resolve?_eq_typeMismatch_iff_get? _
  resolve?_eq_badIndex_iff := resolve?_eq_badIndex_iff_get? _

end

/-- A pool is read from its count and the bytes of its entries, whatever follows them, and it
indexes the constants of the entries. The count is one more than the slots that they take, or one
less than that where the last of them is wide, whose second slot is then cut off. -/
theorem decode_entries {count : UInt16} {entries : List PoolEntry}
    (hcount : count.toNat = 1 + slotCount (entries.map PoolEntry.constant) ∨
      count.toNat = slotCount (entries.map PoolEntry.constant) ∧
        ∃ last ∈ (entries.map PoolEntry.constant).getLast?, last.isWide)
    (start : Nat) (tail : List UInt8) :
    decode ⟨word16 count ++ entries.flatMap PoolEntry.encode ++ tail, start⟩ =
        (.ok (ofConstants count (entries.map PoolEntry.constant)),
          ⟨tail, start + (2 + (entries.flatMap PoolEntry.encode).length)⟩) ∧
      (ofConstants count (entries.map PoolEntry.constant)).count = count ∧
      (ofConstants count (entries.map PoolEntry.constant)).Indexes
        (entries.map PoolEntry.constant) := by
  have hfits := countFits_of hcount
  refine ⟨?_, rfl, indexes_ofConstants hfits⟩
  have hfilled : FillsSlots count.toNat 1 (entries.flatMap PoolEntry.encode)
      (entries.map PoolEntry.constant) := by
    refine fillsSlots_entries entries (fun place hplace ↦ ?_) hfits.2
    exact hfits.1 place (by rwa [List.length_map])
  have hread := reads_decode.run start (PoolBytes.intro count hfilled) tail
  rwa [List.length_append, length_word16] at hread

/-- A text and a wide constant whose second slot a count of three cuts off. -/
def cutEntries : List PoolEntry := [.text [0x41] (by decide), .plain (.long 7) (by decide)]

theorem decode_entries_cutLong :
    ((3 : UInt16).toNat = slotCount (cutEntries.map PoolEntry.constant) ∧
      ∃ last ∈ (cutEntries.map PoolEntry.constant).getLast?, last.isWide) ∧
    ∃ pool, decode ⟨word16 3 ++ cutEntries.flatMap PoolEntry.encode ++ [0xFF], 0⟩ =
        (.ok pool, ⟨[0xFF], 15⟩) ∧
      pool.get? 2 = .ok (.long 7) ∧ pool.get? 3 = .error (.badIndex 3 3) ∧
      pool.resolve? 2 .double = .error (.typeMismatch 2 .double .long) := by
  have hcount : (3 : UInt16).toNat = slotCount (cutEntries.map PoolEntry.constant) ∧
      ∃ last ∈ (cutEntries.map PoolEntry.constant).getLast?, last.isWide :=
    ⟨by decide, .long 7, by rfl, by rfl⟩
  obtain ⟨hread, -, hindexes⟩ := decode_entries (.inr hcount) 0 [0xFF]
  have hlong := (hindexes.get?_eq_ok_iff 2 (.long 7)).mpr ⟨1, by decide, by decide, rfl⟩
  refine ⟨hcount, _, hread, hlong, ?_, ?_⟩
  · exact (hindexes.get?_eq_error_iff 3 _).mpr ⟨rfl, .inr (.inr (by decide))⟩
  · exact (hindexes.resolve?_eq_typeMismatch_iff 2 .double .long).mpr
      ⟨_, hlong, rfl, by decide⟩

end ConstantPool

end MonitorAudit
