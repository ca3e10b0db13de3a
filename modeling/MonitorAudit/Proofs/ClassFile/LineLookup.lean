import MonitorAudit.Proofs.ClassFile.LineOrder

/-!
# The line of an offset

A row of a line table applies from its offset up to that of a later row. `LineNumber.AppliesAt` says
which of the rows of a table applies at an offset, whatever their order: of those that start at or
before the offset the one that starts latest, and of several that start there together the last.

In order the rows that have started stand in front of the others, so the last of them is found by
halving (`LineNumberTable.searchLine?`). `LineNumberTable.answers_row_that_applies` says that a
table has the rows that it is made of, in order and without an exchange of rows of one offset, and
answers for each offset the line of the row that applies there.
-/

set_option autoImplicit false

namespace MonitorAudit

/-! ### Rows in any order -/

namespace LineNumber

/-- The row applies at the offset. It has started there, no row that has started there too starts
later, and none behind it starts with it. -/
inductive AppliesAt (offset : Nat) (row : LineNumber) : List LineNumber → Prop
  | intro {before after : List LineNumber} (start_le : row.startPc.toNat ≤ offset)
      (before_le : ∀ other ∈ before, other.startPc.toNat ≤ offset → other.startPc ≤ row.startPc)
      (after_lt : ∀ other ∈ after, other.startPc.toNat ≤ offset → other.startPc < row.startPc) :
      AppliesAt offset row (before ++ row :: after)

variable {offset : Nat} {row : LineNumber} {rows : List LineNumber}

/-- The row that applies is the last of those that start with it, and none that has started starts
later. -/
theorem appliesAt_iff :
    row.AppliesAt offset rows ↔
      row.startPc.toNat ≤ offset ∧ (startingAt row.startPc rows).getLast? = some row ∧
        ∀ other ∈ rows, other.startPc.toNat ≤ offset → other.startPc ≤ row.startPc := by
  constructor
  · rintro ⟨hstart, hbefore, hafter⟩
    rename_i before after
    have hnone : startingAt row.startPc after = [] := by
      rw [startingAt, List.filter_eq_nil_iff]
      intro other hother hequal
      have hequal : other.startPc = row.startPc := of_decide_eq_true hequal
      have hlater := hafter other hother (hequal ▸ hstart)
      rw [hequal] at hlater
      exact UInt16.lt_irrefl _ hlater
    refine ⟨hstart, ?_, ?_⟩
    · have hfront : startingAt row.startPc (before ++ row :: after) =
          startingAt row.startPc before ++ row :: startingAt row.startPc after := by
        simp [startingAt]
      rw [hfront, hnone, List.getLast?_concat]
    · intro other hother hoffset
      rcases List.mem_append.mp hother with hother | hother
      · exact hbefore other hother hoffset
      · rcases List.mem_cons.mp hother with rfl | hother
        · exact UInt16.le_refl _
        · exact UInt16.le_of_lt (hafter other hother hoffset)
  · rintro ⟨hstart, hlast, hlatest⟩
    obtain ⟨earlier, hearlier⟩ := List.getLast?_eq_some_iff.mp hlast
    obtain ⟨front, back, rfl, -, hback⟩ := List.filter_eq_append_iff.mp hearlier
    obtain ⟨between, after, rfl, -, -, hafter⟩ := List.filter_eq_cons_iff.mp hback
    rw [← List.append_assoc]
    refine .intro hstart (fun other hother ↦ hlatest other ?_) fun other hother hoffset ↦ ?_
    · rw [← List.append_assoc]
      exact List.mem_append_left _ hother
    · have hmem : other ∈ front ++ (between ++ row :: after) := by simp [hother]
      have hle := hlatest other hmem hoffset
      have hne : other.startPc ≠ row.startPc := by
        simpa using List.filter_eq_nil_iff.mp hafter other hother
      exact UInt16.lt_of_le_of_ne hle hne

theorem AppliesAt.mem (h : row.AppliesAt offset rows) : row ∈ rows := by
  cases h
  exact List.mem_append_right _ List.mem_cons_self

/-- At most one row applies. -/
theorem AppliesAt.unique {other : LineNumber} (h : row.AppliesAt offset rows)
    (hother : other.AppliesAt offset rows) : row = other := by
  obtain ⟨hstart, hlast, hlatest⟩ := appliesAt_iff.mp h
  obtain ⟨hstart', hlast', hlatest'⟩ := appliesAt_iff.mp hother
  have hequal : row.startPc = other.startPc :=
    UInt16.le_antisymm (hlatest' row h.mem hstart) (hlatest other hother.mem hstart')
  rw [hequal, hlast'] at hlast
  exact (Option.some.inj hlast).symm

/-- Which row applies does not hang on the order of rows that start at different offsets. -/
theorem appliesAt_congr {others : List LineNumber}
    (h : ∀ startPc, startingAt startPc rows = startingAt startPc others) :
    row.AppliesAt offset rows ↔ row.AppliesAt offset others := by
  have hmem (other : LineNumber) : other ∈ rows ↔ other ∈ others := by
    have hstarting (list : List LineNumber) :
        other ∈ startingAt other.startPc list ↔ other ∈ list := by
      simp [startingAt]
    rw [← hstarting rows, ← hstarting others, h]
  simp only [appliesAt_iff, h, hmem]

end LineNumber

namespace LineNumberTable

open LineNumber (startingAt)

variable (table : LineNumberTable) (offset : Nat)

/-! ### Rows in order -/

/-- The rows of a table that have started at an offset stand in front of those that have not. -/
theorem exists_started :
    ∃ later, table.rows = (table.rows.takeWhile fun row ↦ row.startPc.toNat ≤ offset) ++ later ∧
      (∀ row ∈ table.rows.takeWhile fun row ↦ row.startPc.toNat ≤ offset,
        row.startPc.toNat ≤ offset) ∧
      ∀ row ∈ later, offset < row.startPc.toNat := by
  have hstarted : ∀ row ∈ table.rows.takeWhile fun row ↦ row.startPc.toNat ≤ offset,
      row.startPc.toNat ≤ offset :=
    fun row hrow ↦ of_decide_eq_true (List.all_eq_true.mp List.all_takeWhile row hrow)
  refine ⟨table.rows.dropWhile fun row ↦ row.startPc.toNat ≤ offset,
    List.takeWhile_append_dropWhile.symm, hstarted, ?_⟩
  have hsorted := table.sorted.sublist (List.dropWhile_sublist fun row ↦
    decide (row.startPc.toNat ≤ offset))
  cases hlater : table.rows.dropWhile fun row ↦ row.startPc.toNat ≤ offset with
  | nil => simp
  | cons first later =>
    rw [hlater] at hsorted
    have hfirst : offset < first.startPc.toNat := by
      have hhead := List.head?_dropWhile_not (fun row ↦ decide (row.startPc.toNat ≤ offset))
        table.rows
      rw [hlater] at hhead
      simpa using hhead
    intro row hrow
    rcases List.mem_cons.mp hrow with rfl | hrow
    · exact hfirst
    · exact Nat.lt_of_lt_of_le hfirst
        (UInt16.le_iff_toNat_le.mp (List.rel_of_pairwise_cons hsorted hrow))

/-- A table answers no line where none of its rows has started. -/
theorem lineFor?_eq_none_iff :
    table.lineFor? offset = none ↔ ∀ row ∈ table.rows, offset < row.startPc.toNat := by
  obtain ⟨later, hrows, hstarted, hlater⟩ := table.exists_started offset
  rw [lineFor?, Option.map_eq_none_iff, List.getLast?_eq_none_iff]
  constructor
  · intro hnone row hrow
    rw [hrows, hnone, List.nil_append] at hrow
    exact hlater row hrow
  · intro hnone
    refine List.eq_nil_iff_forall_not_mem.mpr fun row hrow ↦ ?_
    have hmem : row ∈ table.rows := (List.takeWhile_sublist _).subset hrow
    exact absurd (hstarted row hrow) (Nat.not_le_of_lt (hnone row hmem))

/-- A line that a table answers is that of a row that applies. -/
theorem exists_appliesAt_of_lineFor? {line : UInt16} (h : table.lineFor? offset = some line) :
    ∃ row : LineNumber, row.AppliesAt offset table.rows ∧ row.line = line := by
  obtain ⟨later, hrows, hstarted, hlater⟩ := table.exists_started offset
  obtain ⟨row, hlast, hline⟩ := Option.map_eq_some_iff.mp h
  obtain ⟨before, hbefore⟩ := List.getLast?_eq_some_iff.mp hlast
  rw [hbefore] at hrows hstarted
  rw [List.append_assoc, List.singleton_append] at hrows
  refine ⟨row, ?_, hline⟩
  have hsorted := table.sorted
  rw [hrows] at hsorted ⊢
  refine .intro (hstarted row (by simp)) ?_ ?_
  · intro other hother _
    exact (List.pairwise_append.mp hsorted).2.2 other hother row List.mem_cons_self
  · intro other hother hoffset
    exact absurd hoffset (Nat.not_le_of_lt (hlater other hother))

/-- A table answers the line of the row that applies. -/
theorem lineFor?_eq_some_iff (line : UInt16) :
    table.lineFor? offset = some line ↔
      ∃ row : LineNumber, row.AppliesAt offset table.rows ∧ row.line = line := by
  refine ⟨table.exists_appliesAt_of_lineFor? offset, ?_⟩
  rintro ⟨row, hrow, rfl⟩
  cases hanswer : table.lineFor? offset with
  | none =>
    have hbehind := (table.lineFor?_eq_none_iff offset).mp hanswer row hrow.mem
    have hstarted := (LineNumber.appliesAt_iff.mp hrow).1
    omega
  | some line =>
    obtain ⟨other, hother, rfl⟩ := table.exists_appliesAt_of_lineFor? offset hanswer
    rw [hrow.unique hother]

/-! ### Halving -/

/-- The first of the places between two at which a test fails that holds in front of it. The stretch
in which the place lies is halved until nothing of it is left. -/
def splitPoint (test : Nat → Bool) (first last : Nat) : Nat :=
  if first < last then
    let middle := first + (last - first) / 2
    if test middle then splitPoint test (middle + 1) last else splitPoint test first middle
  else first
termination_by last - first

/-- Halving finds how many places pass the test. -/
theorem splitPoint_eq {test : Nat → Bool} {first last count : Nat}
    (htest : ∀ place, place < last → (test place = true ↔ place < count))
    (hfirst : first ≤ count) (hlast : count ≤ last) : splitPoint test first last = count := by
  induction first, last using splitPoint.induct test with
  | case1 first last hlt middle hmiddle ih =>
    rw [splitPoint, if_pos hlt, if_pos hmiddle]
    have hpassed : middle < count := (htest middle (by omega)).mp hmiddle
    exact ih htest hpassed hlast
  | case2 first last hlt middle hmiddle ih =>
    rw [splitPoint, if_pos hlt, if_neg hmiddle]
    have hfailed : ¬ middle < count := fun h ↦ hmiddle ((htest middle (by omega)).mpr h)
    exact ih (fun place hplace ↦ htest place (by omega)) hfirst (by omega)
  | case3 first last hlt =>
    rw [splitPoint, if_neg hlt]
    omega

/-- The line of an offset, looked up in front of the first row that has not started. -/
def searchLine? : Option UInt16 :=
  match splitPoint (fun place ↦ table.rows[place]?.any fun row ↦ row.startPc.toNat ≤ offset) 0
    table.rows.length with
  | 0 => none
  | last + 1 => table.rows[last]?.map (·.line)

theorem searchLine?_eq : table.searchLine? offset = table.lineFor? offset := by
  obtain ⟨later, hrows, hstarted, hlater⟩ := table.exists_started offset
  rw [lineFor?, searchLine?]
  generalize table.rows.takeWhile _ = started at hrows hstarted ⊢
  have hsplit : splitPoint (fun place ↦ table.rows[place]?.any fun row ↦ row.startPc.toNat ≤ offset)
      0 table.rows.length = started.length := by
    refine splitPoint_eq (fun place hplace ↦ ?_) (Nat.zero_le _) (by simp [hrows])
    rw [List.getElem?_eq_getElem hplace, Option.any_some, decide_eq_true_iff]
    simp only [hrows, List.getElem_append]
    split
    · rename_i hin
      exact iff_of_true (hstarted _ (List.getElem_mem hin)) hin
    · rename_i hout
      exact iff_of_false (Nat.not_le_of_lt (hlater _ (List.getElem_mem _))) hout
  rw [hsplit, hrows]
  rcases List.eq_nil_or_concat' started with rfl | ⟨earlier, row, rfl⟩
  · rfl
  · rw [List.length_append, List.length_singleton, List.getLast?_concat]
    simp

/-! ### Tables of given rows -/

theorem appliesAt_ofRows_iff {row : LineNumber} {rows : List LineNumber} :
    row.AppliesAt offset (ofRows rows).rows ↔ row.AppliesAt offset rows :=
  LineNumber.appliesAt_congr fun startPc ↦ startingAt_rows_ofRows startPc rows

theorem mem_rows_ofRows_iff {row : LineNumber} {rows : List LineNumber} :
    row ∈ (ofRows rows).rows ↔ row ∈ rows :=
  (List.mergeSort_perm rows inOrder).mem_iff

/-- The rows of a table are those that it is made of, sorted by their offsets, and rows of one
offset keep their order. For an offset in front of all rows the table answers no line, and for any
other the line of the last of the rows that start latest at or before it. The answer is found by
halving. Rows of different offsets may be given in another order without a change of any answer. -/
theorem answers_row_that_applies (rows : List LineNumber) :
    ((ofRows rows).rows.Perm rows ∧
      ((ofRows rows).rows.Pairwise fun first second ↦ first.startPc ≤ second.startPc) ∧
      ∀ startPc, startingAt startPc (ofRows rows).rows = startingAt startPc rows) ∧
    (∀ offset : Nat,
      ((ofRows rows).lineFor? offset = none ↔ ∀ row ∈ rows, offset < row.startPc.toNat) ∧
      (∀ line, (ofRows rows).lineFor? offset = some line ↔
        ∃ row : LineNumber, row.AppliesAt offset rows ∧ row.line = line) ∧
      (ofRows rows).searchLine? offset = (ofRows rows).lineFor? offset) ∧
    ∀ others : List LineNumber,
      (∀ startPc, startingAt startPc others = startingAt startPc rows) →
        ∀ offset, (ofRows others).lineFor? offset = (ofRows rows).lineFor? offset := by
  refine ⟨⟨List.mergeSort_perm rows inOrder, (ofRows rows).sorted,
    fun startPc ↦ startingAt_rows_ofRows startPc rows⟩, fun offset ↦ ⟨?_, ?_, ?_⟩, ?_⟩
  · simp only [lineFor?_eq_none_iff, mem_rows_ofRows_iff]
  · intro line
    simp only [lineFor?_eq_some_iff, appliesAt_ofRows_iff]
  · exact searchLine?_eq _ offset
  · intro others hothers offset
    have htable : ofRows others = ofRows rows :=
      (ofRows_eq_iff _ _).mpr fun startPc ↦ by
        rw [hothers, startingAt_rows_ofRows]
    rw [htable]

end LineNumberTable

end MonitorAudit
