/-!
# Searching bytes

The first and the last offset at which a pattern stands in a list of bytes. Offsets count from the
one given for the first byte.
-/

set_option autoImplicit false

namespace MonitorAudit

/-- Whether the pattern stands at the start of the bytes. -/
def startsWith (pattern bytes : List UInt8) : Bool := bytes.take pattern.length == pattern

/-- The first offset at which the pattern stands in bytes. -/
def firstOccurrence? (pattern : List UInt8) (offset : Nat) : List UInt8 → Option Nat
  | [] => none
  | byte :: rest =>
    if startsWith pattern (byte :: rest) then some offset
    else firstOccurrence? pattern (offset + 1) rest

/-- The last offset at which the pattern stands in bytes, or else the one already found. -/
def lastOccurrenceOr (pattern : List UInt8) (found? : Option Nat) (offset : Nat) :
    List UInt8 → Option Nat
  | [] => found?
  | byte :: rest =>
    lastOccurrenceOr pattern (if startsWith pattern (byte :: rest) then some offset else found?)
      (offset + 1) rest

/-- The last offset at which the pattern stands in bytes. -/
def lastOccurrence? (pattern : List UInt8) (offset : Nat) (bytes : List UInt8) : Option Nat :=
  lastOccurrenceOr pattern none offset bytes

theorem startsWith_of_firstOccurrence? {pattern bytes : List UInt8} {offset found : Nat}
    (h : firstOccurrence? pattern offset bytes = some found) :
    offset ≤ found ∧ startsWith pattern (bytes.drop (found - offset)) := by
  induction bytes generalizing offset with
  | nil => simp [firstOccurrence?] at h
  | cons byte rest ih =>
    rw [firstOccurrence?] at h
    split at h
    · rename_i hstarts
      obtain rfl : offset = found := by simpa using h
      simpa using hstarts
    · obtain ⟨hle, hstarts⟩ := ih h
      refine ⟨by omega, ?_⟩
      rwa [show found - offset = found - (offset + 1) + 1 by omega, List.drop_succ_cons]

theorem startsWith_of_lastOccurrenceOr {pattern bytes : List UInt8} {found? : Option Nat}
    {offset found : Nat} (h : lastOccurrenceOr pattern found? offset bytes = some found) :
    found? = some found ∨
      offset ≤ found ∧ startsWith pattern (bytes.drop (found - offset)) := by
  induction bytes generalizing found? offset with
  | nil => exact .inl h
  | cons byte rest ih =>
    rcases ih h with hfound | ⟨hle, hstarts⟩
    · split at hfound
      · rename_i hstarts
        obtain rfl : offset = found := by simpa using hfound
        exact .inr (by simpa using hstarts)
      · exact .inl hfound
    · refine .inr ⟨by omega, ?_⟩
      rwa [show found - offset = found - (offset + 1) + 1 by omega, List.drop_succ_cons]

end MonitorAudit
