/-!
# Line number tables

A `LineNumberTable` says from which offset of a method's code on each source line applies. Its rows
are in order of their offsets, and rows of the same offset keep the order in which they were given
(`ofRows`). `lineFor?` answers the last row at or before an offset.
-/

set_option autoImplicit false

namespace MonitorAudit

/-- The source line that applies from an offset of the code on. -/
structure LineNumber where
  startPc : UInt16
  line : UInt16
  deriving DecidableEq, Repr

/-- Source lines in order of the offsets from which they apply. -/
structure LineNumberTable where
  rows : List LineNumber
  sorted : rows.Pairwise fun first second ↦ first.startPc ≤ second.startPc

namespace LineNumberTable

/-- Whether the first row may stand in front of the second. -/
def inOrder (first second : LineNumber) : Bool := first.startPc ≤ second.startPc

theorem inOrder_trans (first second third : LineNumber) (hfirst : inOrder first second)
    (hsecond : inOrder second third) : inOrder first third := by
  simp only [inOrder, decide_eq_true_eq, UInt16.le_iff_toNat_le] at *
  omega

theorem inOrder_total (first second : LineNumber) :
    (inOrder first second || inOrder second first) = true := by
  simp only [inOrder, Bool.or_eq_true, decide_eq_true_eq, UInt16.le_iff_toNat_le]
  omega

/-- The table of the given rows, in any order. -/
def ofRows (rows : List LineNumber) : LineNumberTable where
  rows := rows.mergeSort inOrder
  sorted := (List.pairwise_mergeSort inOrder_trans inOrder_total rows).imp fun h ↦ by
    simpa [inOrder] using h

/-- The line of the last row at or before an offset. -/
def lineFor? (table : LineNumberTable) (offset : Nat) : Option UInt16 :=
  (table.rows.takeWhile fun row ↦ row.startPc.toNat ≤ offset).getLast?.map (·.line)

end LineNumberTable

end MonitorAudit
