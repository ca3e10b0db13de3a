import MonitorAudit.Proofs.Bytes.Whole

/-!
# Cursors that are held side by side

A program may hold any number of cursors over one outermost buffer: it reads through one of them,
splits a window off another, copies a third. A `Handle` is a cursor that is held, together with the
window for which it was made and the place of the handle from which it was made. `Handle.step` is
one use of one of the handles, `Handle.afterUses` what is held after any uses.

`Handle.AreNested` is what every use keeps: each handle shows the bytes of the outermost buffer that
are at its position, inside its window, and its window is inside that of its parent
(`Handle.areNested_afterUses`). A use changes the handle that is used and no other, so that what is
seen through a handle is what its own uses make of it (`Handle.getElem?_foldl_step_filter`).
-/

set_option autoImplicit false

namespace MonitorAudit

/-! ### Reads of a cursor -/

namespace Read

theorem onlyAdvances_decoder (read : Read) : read.decoder.OnlyAdvances := by
  cases read with
  | u8 => exact .u8
  | i8 => exact .i8
  | u16 => exact .u16
  | i16 => exact .i16
  | u32 => exact .u32
  | i32 => exact .i32
  | u64 => exact .bind .u32 fun _ ↦ .bind .u32 fun _ ↦ .pure _
  | take count => exact .take count
  | skip count => exact .skip count
  | window count => exact .bind .position fun _ ↦ .bind (.take count) fun _ ↦ .pure _

/-- The cursor that a read splits off, if it splits one off and succeeds. -/
def offshoot? (cursor : Cursor) : Read → Option Cursor
  | window count => ((window count).decoder cursor).1.toOption
  | _ => none

theorem isWholeAt_window (count : Nat) (cursor : Cursor) : (window count).IsWholeAt cursor :=
  isWholeAt_of_ne_u64 (by simp) cursor

variable {cursor : Cursor} {count : Nat}

/-- A window that is there is split off, and passed over. -/
theorem window_of_le (h : count ≤ cursor.remaining) :
    (window count).offshoot? cursor = some ⟨cursor.rest.take count, cursor.position⟩ ∧
      ((window count).decoder cursor).2 = cursor.advance count := by
  obtain ⟨value, hvalue, hdecoder⟩ := (isWholeAt_window count cursor).of_le h
  obtain rfl : value = ⟨cursor.rest.take count, cursor.position⟩ := hvalue
  rw [offshoot?, hdecoder]
  exact ⟨rfl, rfl⟩

/-- A window that is not there is neither. -/
theorem window_of_lt (h : cursor.remaining < count) :
    (window count).offshoot? cursor = none ∧ ((window count).decoder cursor).2 = cursor := by
  rw [offshoot?, (isWholeAt_window count cursor).of_lt h]
  exact ⟨rfl, rfl⟩

/-- What is split off stands at the cursor. -/
theorem exists_of_offshoot? {read : Read} {offshoot : Cursor}
    (h : read.offshoot? cursor = some offshoot) :
    ∃ count ≤ cursor.remaining, offshoot = ⟨cursor.rest.take count, cursor.position⟩ := by
  cases read with
  | window count =>
    by_cases hthere : count ≤ cursor.remaining
    · rw [(window_of_le hthere).1] at h
      exact ⟨count, hthere, (Option.some.inj h).symm⟩
    · rw [(window_of_lt (Nat.lt_of_not_le hthere)).1] at h
      simp at h
  | _ => simp [offshoot?] at h

end Read

/-! ### Handles and their uses -/

/-- A cursor that is held. -/
structure Handle where
  cursor : Cursor
  /-- The offset at which the window begins for which the handle was made. -/
  start : Nat
  /-- The offset at which the window ends. -/
  stop : Nat
  /-- The place of the handle from which this one was made, if there is one. -/
  parent? : Option Nat
  deriving DecidableEq, Repr

namespace Handle

/-- The handle of an outermost buffer. -/
def outermost (bytes : List UInt8) : Handle := ⟨.ofBytes bytes, 0, bytes.length, none⟩

/-- What can be done with the handle at a place. -/
inductive Use where
  | reads (place : Nat) (read : Read)
  | copies (place : Nat)
  deriving DecidableEq, Repr

namespace Use

/-- The place of the handle that is used. -/
def place : Use → Nat
  | reads place _ => place
  | copies place => place

/-- What becomes of the handle that is used. -/
def after (handle : Handle) : Use → Handle
  | reads _ read => { handle with cursor := (read.decoder handle.cursor).2 }
  | copies _ => handle

/-- The handle that is made, if one is. -/
def made? (handle : Handle) : Use → Option Handle
  | reads place read => (read.offshoot? handle.cursor).map fun cursor ↦
    ⟨cursor, cursor.position, cursor.stop, some place⟩
  | copies place => some { handle with parent? := some place }

end Use

/-- Uses one of the handles. Where none is held at the place, nothing is done. -/
def step (handles : List Handle) (use : Use) : List Handle :=
  match handles[use.place]? with
  | none => handles
  | some handle => handles.set use.place (use.after handle) ++ (use.made? handle).toList

/-- The handles that are held after uses of an outermost buffer, in the order in which they were
made. -/
def afterUses (bytes : List UInt8) (uses : List Use) : List Handle :=
  uses.foldl step [outermost bytes]

section Step

variable {handles : List Handle} {handle : Handle} {use : Use} {place : Nat}

theorem step_of_some (h : handles[use.place]? = some handle) :
    step handles use =
      handles.set use.place (use.after handle) ++ (use.made? handle).toList := by
  rw [step, h]

/-- A use changes the handle that is used and no other. -/
theorem getElem?_step (h : handles[place]? = some handle) (use : Use) :
    (step handles use)[place]? =
      some (if use.place = place then use.after handle else handle) := by
  have hplace := (List.getElem?_eq_some_iff.mp h).1
  cases hused : handles[use.place]? with
  | none =>
    -- Nothing is held at the place that is used, so it is not this place.
    have hne : use.place ≠ place := by
      intro heq
      rw [heq, h] at hused
      simp at hused
    rw [step, hused, if_neg hne]
    exact h
  | some used =>
    rw [step_of_some hused, List.getElem?_append_left (by simpa using hplace), List.getElem?_set]
    split
    · rename_i heq
      rw [heq, h] at hused
      rw [if_pos (heq ▸ hplace), Option.some.inj hused]
    · exact h

/-- What is held after a use was held before it, or is the handle that the use makes. -/
theorem cases_of_getElem?_step {found : Handle} (h : (step handles use)[place]? = some found) :
    (∃ handle, handles[place]? = some handle ∧
      found = if use.place = place then use.after handle else handle) ∨
    ∃ used, handles[use.place]? = some used ∧ use.made? used = some found ∧
      place = handles.length := by
  by_cases hplace : place < handles.length
  · have hheld := List.getElem?_eq_getElem hplace
    rw [getElem?_step hheld use] at h
    exact .inl ⟨_, hheld, (Option.some.inj h).symm⟩
  · refine .inr ?_
    cases hused : handles[use.place]? with
    | none =>
      rw [step, hused] at h
      exact absurd (List.getElem?_eq_some_iff.mp h).1 hplace
    | some used =>
      rw [step_of_some hused, List.getElem?_append_right (by simpa using hplace),
        List.length_set] at h
      cases hmade : use.made? used with
      | none => simp [hmade] at h
      | some made =>
        rw [hmade, Option.toList_some, List.getElem?_singleton] at h
        split at h
        · exact ⟨used, rfl, hmade.trans h, by omega⟩
        · simp at h

/-- The handle at a place, after any uses, is what the uses of that handle make of it. -/
theorem getElem?_foldl_step (h : handles[place]? = some handle) (uses : List Use) :
    (uses.foldl step handles)[place]? = some (uses.foldl
      (fun handle use ↦ if use.place = place then use.after handle else handle) handle) := by
  induction uses generalizing handles handle with
  | nil => exact h
  | cons use uses ih => exact ih (getElem?_step h use)

/-- Uses of other handles can be left out. -/
theorem getElem?_foldl_step_filter (hplace : place < handles.length) (uses : List Use) :
    (uses.foldl step handles)[place]? =
      ((uses.filter fun use ↦ use.place = place).foldl step handles)[place]? := by
  have hheld := List.getElem?_eq_getElem hplace
  rw [getElem?_foldl_step hheld, getElem?_foldl_step hheld, List.foldl_filter]
  congr 2
  funext handle use
  by_cases hplace : use.place = place
  · simp [hplace]
  · simp [hplace]

end Step

/-! ### Windows inside windows -/

/-- The handle shows bytes of the outermost buffer, from its position to the end of its window. -/
structure IsIn (bytes : List UInt8) (handle : Handle) : Prop where
  standsIn : handle.cursor.StandsIn bytes
  start_le : handle.start ≤ handle.cursor.position
  stop_eq : handle.cursor.stop = handle.stop
  stop_le : handle.stop ≤ bytes.length

/-- The window of the handle is inside that of another. -/
structure IsInside (handle other : Handle) : Prop where
  start_le : other.start ≤ handle.start
  stop_le : handle.stop ≤ other.stop

/-- The handle at the place is the first one, whose window is the outermost buffer, or it was made
from a handle in front of it, inside whose window its own window is. -/
inductive IsMadeFrom (bytes : List UInt8) (handles : List Handle) (place : Nat) : Handle → Prop
  | start {cursor : Cursor} (first : place = 0) :
    IsMadeFrom bytes handles place ⟨cursor, 0, bytes.length, none⟩
  | parent {handle parent : Handle} {above : Nat} (parent?_eq : handle.parent? = some above)
      (above_lt : above < place) (held : handles[above]? = some parent)
      (inside : handle.IsInside parent) : IsMadeFrom bytes handles place handle

/-- What all uses keep. -/
structure AreNested (bytes : List UInt8) (handles : List Handle) : Prop where
  isIn : ∀ handle ∈ handles, handle.IsIn bytes
  isMadeFrom : ∀ (place : Nat) (handle : Handle), handles[place]? = some handle →
    IsMadeFrom bytes handles place handle

section Nesting

variable {bytes : List UInt8} {handles : List Handle} {handle made : Handle} {use : Use}

/-- What is seen through the handle are the bytes of the outermost buffer from its position on. -/
theorem IsIn.rest_eq (h : handle.IsIn bytes) :
    handle.cursor.rest = (bytes.drop handle.cursor.position).take handle.cursor.remaining :=
  List.prefix_iff_eq_take.mp h.standsIn

/-- A use leaves the window and the parent of a handle as they are. -/
theorem Use.after_eq (use : Use) (handle : Handle) :
    use.after handle = { handle with cursor := (use.after handle).cursor } := by
  cases use with
  | reads place read | copies place => rfl

theorem IsIn.after (h : handle.IsIn bytes) (use : Use) : (use.after handle).IsIn bytes := by
  cases use with
  | reads place read =>
    have hleft : handle.cursor.LeadsTo (read.decoder handle.cursor).2 :=
      read.onlyAdvances_decoder handle.cursor
    exact ⟨h.standsIn.of_leadsTo hleft, Nat.le_trans h.start_le hleft.position_le,
      hleft.stop_eq.trans h.stop_eq, h.stop_le⟩
  | copies place => exact h

/-- What is made has the handle that is used for its parent, and lies inside its window. -/
theorem IsIn.of_made? (h : handle.IsIn bytes) (hmade : use.made? handle = some made) :
    made.IsIn bytes ∧ made.parent? = some use.place ∧ made.IsInside handle := by
  cases use with
  | reads place read =>
    obtain ⟨cursor, hcursor, rfl⟩ := Option.map_eq_some_iff.mp hmade
    obtain ⟨count, hcount, rfl⟩ := Read.exists_of_offshoot? hcursor
    have hstop : (⟨handle.cursor.rest.take count, handle.cursor.position⟩ : Cursor).stop ≤
        handle.stop := by
      rw [← h.stop_eq, Cursor.stop, Cursor.stop, Cursor.remaining, List.length_take]
      exact Nat.add_le_add_left (Nat.min_le_right _ _) _
    exact ⟨⟨(List.take_prefix _ _).trans h.standsIn, Nat.le_refl _, rfl,
      Nat.le_trans hstop h.stop_le⟩, rfl, ⟨h.start_le, hstop⟩⟩
  | copies place =>
    obtain rfl := Option.some.inj hmade
    exact ⟨⟨h.standsIn, h.start_le, h.stop_eq, h.stop_le⟩, rfl, ⟨Nat.le_refl _, Nat.le_refl _⟩⟩

/-- The windows of handles stay where they are, whatever is used. -/
theorem exists_getElem?_step {place : Nat} (h : handles[place]? = some handle) (use : Use) :
    ∃ cursor, (step handles use)[place]? = some { handle with cursor } := by
  rw [getElem?_step h use]
  split
  · exact ⟨_, congrArg some (use.after_eq handle)⟩
  · exact ⟨handle.cursor, rfl⟩

theorem IsMadeFrom.step {place : Nat} (h : IsMadeFrom bytes handles place handle) (use : Use)
    (cursor : Cursor) :
    IsMadeFrom bytes (Handle.step handles use) place { handle with cursor } := by
  cases h with
  | start first => exact .start first
  | parent parent?_eq above_lt held inside =>
    obtain ⟨other, hother⟩ := exists_getElem?_step held use
    exact .parent parent?_eq above_lt hother ⟨inside.start_le, inside.stop_le⟩

theorem areNested_outermost (bytes : List UInt8) : AreNested bytes [outermost bytes] := by
  constructor
  · intro handle hhandle
    obtain rfl := List.mem_singleton.mp hhandle
    exact ⟨Cursor.standsIn_ofBytes bytes, Nat.le_refl _, Nat.zero_add _, Nat.le_refl _⟩
  · intro place handle hhandle
    obtain rfl := List.mem_singleton.mp (List.mem_of_getElem? hhandle)
    exact .start (Nat.lt_one_iff.mp (List.getElem?_eq_some_iff.mp hhandle).1)

/-- Each use keeps the nesting. -/
theorem AreNested.step (h : AreNested bytes handles) (use : Use) :
    AreNested bytes (Handle.step handles use) := by
  constructor
  · intro found hfound
    obtain ⟨place, hplace⟩ := List.mem_iff_getElem?.mp hfound
    rcases cases_of_getElem?_step hplace with ⟨handle, hheld, rfl⟩ | ⟨used, hused, hmade, -⟩
    · have hhandle := h.isIn handle (List.mem_of_getElem? hheld)
      split
      · exact hhandle.after use
      · exact hhandle
    · exact ((h.isIn used (List.mem_of_getElem? hused)).of_made? hmade).1
  · intro place found hplace
    rcases cases_of_getElem?_step hplace with ⟨handle, hheld, -⟩ | ⟨used, hused, hmade, rfl⟩
    · obtain ⟨cursor, hcursor⟩ := exists_getElem?_step hheld use
      obtain rfl := Option.some.inj (hplace.symm.trans hcursor)
      exact (h.isMadeFrom place handle hheld).step use cursor
    · obtain ⟨-, hparent, hinside⟩ := (h.isIn used (List.mem_of_getElem? hused)).of_made? hmade
      obtain ⟨cursor, hcursor⟩ := exists_getElem?_step hused use
      exact .parent hparent (List.getElem?_eq_some_iff.mp hused).1 hcursor
        ⟨hinside.start_le, hinside.stop_le⟩

theorem AreNested.foldl (h : AreNested bytes handles) (uses : List Use) :
    AreNested bytes (uses.foldl Handle.step handles) := by
  induction uses generalizing handles with
  | nil => exact h
  | cons use uses ih => exact ih (h.step use)

/-- So all uses keep it. -/
theorem areNested_afterUses (bytes : List UInt8) (uses : List Use) :
    AreNested bytes (afterUses bytes uses) :=
  (areNested_outermost bytes).foldl uses

end Nesting

/-! ### What single uses make -/

section Made

variable {handles : List Handle} {handle : Handle} {place : Nat}

theorem set_eq_self (h : handles[place]? = some handle) : handles.set place handle = handles := by
  obtain ⟨hplace, rfl⟩ := List.getElem?_eq_some_iff.mp h
  exact List.set_getElem_self hplace

/-- A window that is there is a handle of its own, over just the bytes that its parent passes. -/
theorem step_window_of_le (h : handles[place]? = some handle) {count : Nat}
    (hcount : count ≤ handle.cursor.remaining) :
    step handles (.reads place (.window count)) =
      handles.set place { handle with cursor := handle.cursor.advance count } ++
        [⟨⟨handle.cursor.rest.take count, handle.cursor.position⟩, handle.cursor.position,
          handle.cursor.position + count, some place⟩] := by
  obtain ⟨hoffshoot, hleft⟩ := Read.window_of_le hcount
  have hstop : (⟨handle.cursor.rest.take count, handle.cursor.position⟩ : Cursor).stop =
      handle.cursor.position + count := by
    rw [Cursor.stop, Cursor.remaining, List.length_take_of_le hcount]
  have hused : handles[(Use.reads place (.window count)).place]? = some handle := h
  rw [step_of_some hused, Use.after, Use.made?, hoffshoot, hleft, Option.map_some, hstop]
  rfl

/-- A window that is not there is no handle, and nothing is passed. -/
theorem step_window_of_lt (h : handles[place]? = some handle) {count : Nat}
    (hcount : handle.cursor.remaining < count) :
    step handles (.reads place (.window count)) = handles := by
  obtain ⟨hoffshoot, hleft⟩ := Read.window_of_lt hcount
  have hused : handles[(Use.reads place (.window count)).place]? = some handle := h
  rw [step_of_some hused, Use.after, Use.made?, hoffshoot, hleft, Option.map_none,
    Option.toList_none, List.append_nil]
  exact set_eq_self h

/-- A copy shows what the handle shows that is copied. -/
theorem step_copies (h : handles[place]? = some handle) :
    step handles (.copies place) = handles ++ [{ handle with parent? := some place }] := by
  have hused : handles[(Use.copies place).place]? = some handle := h
  rw [step_of_some hused]
  exact congrArg (· ++ _) (set_eq_self h)

end Made

end Handle

end MonitorAudit
