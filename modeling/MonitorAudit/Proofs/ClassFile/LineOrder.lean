import Mathlib.Data.List.Perm.Basic
import MonitorAudit.ClassFile.LineNumberTable

/-!
# The order of line tables

The rows of a line table may be given in any order. A table `IsListedBy` rows if they are its rows
and rows that start at one offset are in the order in which the table has them.

`LineNumberTable.ofRows_eq_iff` says that a table is made from just the rows by which it is listed:
the rows of a table are the given ones, sorted by their offsets without exchanging rows of one
offset.
-/

set_option autoImplicit false

namespace MonitorAudit

/-- The rows that start at an offset, in their order. -/
def LineNumber.startingAt (startPc : UInt16) (rows : List LineNumber) : List LineNumber :=
  rows.filter fun row ↦ row.startPc = startPc

namespace LineNumberTable

open LineNumber (startingAt)

/-- The rows are those of the table, and rows that start at one offset are in its order. -/
def IsListedBy (table : LineNumberTable) (rows : List LineNumber) : Prop :=
  ∀ startPc, startingAt startPc rows = startingAt startPc table.rows

@[ext] theorem eq_of_rows_eq {table other : LineNumberTable} (h : table.rows = other.rows) :
    table = other := by
  cases table
  cases other
  simpa using h

/-- Rows that start at one offset are not exchanged. -/
theorem startingAt_rows_ofRows (startPc : UInt16) (rows : List LineNumber) :
    startingAt startPc (ofRows rows).rows = startingAt startPc rows := by
  have hequal : (startingAt startPc rows).Pairwise fun first second ↦ inOrder first second := by
    refine List.pairwise_of_forall_mem_list fun first hfirst second hsecond ↦ ?_
    have hstart : first.startPc = second.startPc := by
      simp only [startingAt, List.mem_filter, decide_eq_true_eq] at hfirst hsecond
      rw [hfirst.2, hsecond.2]
    simp [inOrder, hstart]
  have hsublist : (startingAt startPc rows).Sublist (ofRows rows).rows :=
    List.sublist_mergeSort inOrder_trans inOrder_total hequal List.filter_sublist
  have hstarting : startingAt startPc (startingAt startPc rows) = startingAt startPc rows := by
    simp [startingAt]
  have hkept : (startingAt startPc rows).Sublist (startingAt startPc (ofRows rows).rows) := by
    rw [← hstarting]
    exact hsublist.filter _
  have hperm : (startingAt startPc (ofRows rows).rows).Perm (startingAt startPc rows) :=
    (List.mergeSort_perm rows inOrder).filter _
  exact (hkept.eq_of_length hperm.length_eq.symm).symm

/-- The rows in front of others in order are those that start first. -/
theorem startPc_le_of_startingAt_eq {first second : LineNumber} {rest others : List LineNumber}
    (horder : (second :: others).Pairwise fun first second ↦ first.startPc ≤ second.startPc)
    (h : ∀ startPc, startingAt startPc (first :: rest) = startingAt startPc (second :: others)) :
    second.startPc ≤ first.startPc := by
  have hfirst : first ∈ startingAt first.startPc (second :: others) := by
    rw [← h]
    simp [startingAt]
  have hmem : first ∈ second :: others := List.mem_of_mem_filter hfirst
  rcases List.mem_cons.mp hmem with rfl | hmem
  · exact UInt16.le_refl _
  · exact List.rel_of_pairwise_cons horder hmem

/-- Rows in order are determined by the rows that start at each offset. -/
theorem eq_of_startingAt_eq {rows others : List LineNumber}
    (hrows : rows.Pairwise fun first second ↦ first.startPc ≤ second.startPc)
    (hothers : others.Pairwise fun first second ↦ first.startPc ≤ second.startPc)
    (h : ∀ startPc, startingAt startPc rows = startingAt startPc others) : rows = others := by
  induction rows generalizing others with
  | nil =>
    cases others with
    | nil => rfl
    | cons second others => simpa [startingAt] using h second.startPc
  | cons first rows ih =>
    cases others with
    | nil => simpa [startingAt] using h first.startPc
    | cons second others =>
      have hstart : first.startPc = second.startPc :=
        UInt16.le_antisymm (startPc_le_of_startingAt_eq hrows fun startPc ↦ (h startPc).symm)
          (startPc_le_of_startingAt_eq hothers h)
      have hheads := h first.startPc
      obtain rfl : first = second := by
        simp only [startingAt, List.filter_cons, hstart, decide_true, if_true] at hheads
        exact (List.cons.inj hheads).1
      have htails (startPc : UInt16) : startingAt startPc rows = startingAt startPc others := by
        have hboth := h startPc
        simp only [startingAt, List.filter_cons] at hboth ⊢
        split at hboth
        · exact (List.cons.inj hboth).2
        · exact hboth
      rw [ih hrows.of_cons hothers.of_cons htails]

/-- The table of some rows is listed by them. -/
theorem isListedBy_ofRows (rows : List LineNumber) : (ofRows rows).IsListedBy rows :=
  fun startPc ↦ (startingAt_rows_ofRows startPc rows).symm

/-- A table is made from just the rows by which it is listed. -/
theorem ofRows_eq_iff (table : LineNumberTable) (rows : List LineNumber) :
    ofRows rows = table ↔ table.IsListedBy rows := by
  constructor
  · rintro rfl
    exact isListedBy_ofRows rows
  · intro hlisted
    apply eq_of_rows_eq
    refine eq_of_startingAt_eq (ofRows rows).sorted table.sorted fun startPc ↦ ?_
    rw [startingAt_rows_ofRows, hlisted startPc]

/-- The rows by which a table is listed are as many as it has. -/
theorem IsListedBy.length_eq {table : LineNumberTable} {rows : List LineNumber}
    (h : table.IsListedBy rows) : rows.length = table.rows.length := by
  rw [← (ofRows_eq_iff table rows).mpr h]
  exact (List.mergeSort_perm rows inOrder).length_eq.symm

end LineNumberTable

end MonitorAudit
