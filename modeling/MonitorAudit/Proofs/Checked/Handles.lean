import Mathlib.Data.List.Forall2
import MonitorAudit.Proofs.Bytes.Handles
import MonitorAudit.Proofs.Checked.Reader

/-!
# Readers that are held side by side

A machine holds a `Reader` for each handle: a buffer, an index into it, and the offset of the buffer
in the outermost one. `Handle.checkedAfterUses?` performs uses on readers, and answers nothing if an
operation fails. `Checked.Mirrors` says of a reading what is needed to follow it past a fault: it
leaves its reader where the decoder leaves the cursor, whether or not it succeeds.

`handles_keep_to_their_windows` says what is seen through handles after any uses, and that readers
show the same.
-/

set_option autoImplicit false

namespace MonitorAudit

/-! ### Readings that leave the reader where the decoder leaves the cursor -/

namespace Checked

variable {ε α β : Type}

/-- No operation of the reading fails. It ends as the decoder does, and the reader that it leaves is
in the same buffer, where the decoder leaves the cursor. -/
def Mirrors (checked : Checked ε α) (decoder : Decoder ε α) : Prop :=
  ∀ reader : Reader, reader.IsValid → ∃ outcome later, checked reader = some (outcome, later) ∧
    later.Follows reader ∧ decoder reader.cursor = (outcome, later.cursor)

namespace Mirrors

theorem pure (value : α) : Mirrors (Pure.pure value : Checked ε α) (Pure.pure value) :=
  fun reader hreader ↦ ⟨.ok value, reader, rfl, hreader.follows_self, rfl⟩

variable {first : Checked ε α} {first' : Decoder ε α} {next : α → Checked ε β}
  {next' : α → Decoder ε β}

/-- What follows is given values that the first part can answer. -/
theorem bind_answer (hfirst : Mirrors first first')
    (hnext : ∀ value cursor left, first' cursor = (.ok value, left) →
      Mirrors (next value) (next' value)) :
    Mirrors (first >>= next) (first' >>= next') := by
  intro reader hreader
  obtain ⟨outcome, later, hchecked, hlater, hdecoder⟩ := hfirst reader hreader
  rw [bind_apply, Decoder.bind_apply, hchecked, hdecoder]
  cases outcome with
  | error fault => exact ⟨.error fault, later, rfl, hlater, rfl⟩
  | ok value =>
    obtain ⟨outcome, last, hnext, hlast, hdecoder'⟩ :=
      hnext value _ _ hdecoder later (hlater.isValid hreader)
    exact ⟨outcome, last, hnext, hlast.trans hlater, hdecoder'⟩

theorem bind (hfirst : Mirrors first first')
    (hnext : ∀ value, Mirrors (next value) (next' value)) :
    Mirrors (first >>= next) (first' >>= next') :=
  hfirst.bind_answer fun value _ _ _ ↦ hnext value

section Reading

variable [OfEndOfData ε]

theorem take (count : Nat) :
    Mirrors (Checked.take count : Checked ε (List UInt8)) (Decoder.take count) := by
  intro reader hreader
  rw [Checked.take, Decoder.take]
  by_cases hthere : count ≤ reader.cursor.remaining
  · rw [hreader.take?_of_le hthere, Cursor.splitAt?_of_le hthere, ← Reader.cursor_advance]
    exact ⟨_, _, rfl, hreader.follows_advance hthere, rfl⟩
  · have hthere := Nat.lt_of_not_le hthere
    rw [hreader.take?_of_lt hthere, Cursor.splitAt?_of_lt hthere]
    exact ⟨_, _, rfl, hreader.follows_self, rfl⟩

/-- What follows bytes that are taken is given so many of them. -/
theorem take_bind {count : Nat} {next : List UInt8 → Checked ε β}
    {next' : List UInt8 → Decoder ε β}
    (hnext : ∀ bytes, bytes.length = count → Mirrors (next bytes) (next' bytes)) :
    Mirrors (Checked.take count >>= next) (Decoder.take count >>= next') := by
  refine (take count).bind_answer fun bytes cursor left hbytes ↦ hnext bytes ?_
  obtain ⟨hcount, rfl, -⟩ := Decoder.take_eq_ok_iff.mp hbytes
  exact List.length_take_of_le hcount

theorem skip (count : Nat) : Mirrors (Checked.skip count : Checked ε Unit) (Decoder.skip count) :=
  (take count).bind fun _ ↦ .pure _

theorem u8 : Mirrors (Checked.u8 : Checked ε UInt8) Decoder.u8 := by
  refine take_bind fun bytes hlength ↦ ?_
  obtain ⟨first, rfl⟩ := List.length_eq_one_iff.mp hlength
  exact .pure _

theorem u16 : Mirrors (Checked.u16 : Checked ε UInt16) Decoder.u16 := by
  refine take_bind fun bytes hlength ↦ ?_
  match bytes, hlength with
  | [first, second], _ => exact .pure _

theorem u32 : Mirrors (Checked.u32 : Checked ε UInt32) Decoder.u32 := by
  refine take_bind fun bytes hlength ↦ ?_
  match bytes, hlength with
  | [first, second, third, fourth], _ => exact .pure _

theorem u64 : Mirrors (Checked.u64 : Checked ε UInt64) Decoder.u64 :=
  u32.bind fun _ ↦ u32.bind fun _ ↦ .pure _

theorem i8 : Mirrors (Checked.i8 : Checked ε Int8) Decoder.i8 := u8.bind fun _ ↦ .pure _

theorem i16 : Mirrors (Checked.i16 : Checked ε Int16) Decoder.i16 := u16.bind fun _ ↦ .pure _

theorem i32 : Mirrors (Checked.i32 : Checked ε Int32) Decoder.i32 := u32.bind fun _ ↦ .pure _

end Reading

end Mirrors

/-- The same reading, which splits no reader off. -/
def quietly (checked : Checked ε α) : Checked ε (Option Reader) := do
  let _ ← checked
  return none

end Checked

/-! ### Reads of a reader -/

/-- The reading that does a read, with the reader that it splits off, if it does. -/
def Read.checked : Read → Checked EndOfData (Option Reader)
  | u8 => Checked.u8.quietly
  | i8 => Checked.i8.quietly
  | u16 => Checked.u16.quietly
  | i16 => Checked.i16.quietly
  | u32 => Checked.u32.quietly
  | i32 => Checked.i32.quietly
  | u64 => Checked.u64.quietly
  | take count => (Checked.take count).quietly
  | skip count => (Checked.skip count).quietly
  | window count => do return some (← Checked.window count)

/-- The reader with the unread bytes of a cursor for its buffer. -/
def Reader.ofCursor (cursor : Cursor) : Reader := ⟨cursor.rest, 0, cursor.position⟩

/-- The reader is left where the cursor is left, and splits off what the cursor splits off. -/
structure Read.IsDoneBy (read : Read) (reader later : Reader)
    (outcome : Except EndOfData (Option Reader)) : Prop where
  follows : later.Follows reader
  cursor_eq : later.cursor = (read.decoder reader.cursor).2
  offshoot?_eq : outcome.toOption.join = (read.offshoot? reader.cursor).map Reader.ofCursor

section Reads

variable {reader : Reader}

/-- A reading that splits no reader off does what its decoder does. -/
theorem Read.exists_quietly (read : Read) {checked : Checked EndOfData read.Value}
    (h : checked.Mirrors read.decoder) (hreader : reader.IsValid)
    (hoffshoot : read.offshoot? reader.cursor = none) :
    ∃ outcome later, checked.quietly reader = some (outcome, later) ∧
      read.IsDoneBy reader later outcome := by
  obtain ⟨outcome, later, hchecked, hlater, hdecoder⟩ := h reader hreader
  rw [Checked.quietly, Checked.bind_apply, hchecked]
  cases outcome with
  | error fault =>
    exact ⟨_, _, rfl, hlater, (congrArg Prod.snd hdecoder).symm, by rw [hoffshoot]; rfl⟩
  | ok value =>
    exact ⟨_, _, rfl, hlater, (congrArg Prod.snd hdecoder).symm, by rw [hoffshoot]; rfl⟩

/-- A window that is split off is a reader with its index in its buffer. -/
theorem Read.exists_checked_window (hreader : reader.IsValid) (count : Nat) :
    ∃ outcome later, (window count).checked reader = some (outcome, later) ∧
      (window count).IsDoneBy reader later outcome := by
  rw [Read.checked, Checked.bind_apply, Checked.window, Checked.bind_apply, Checked.position,
    hreader.position?_eq, Option.map_some]
  simp only [Checked.bind_apply, Checked.take]
  by_cases hthere : count ≤ reader.cursor.remaining
  · obtain ⟨hoffshoot, hleft⟩ := window_of_le hthere
    rw [hreader.take?_of_le hthere]
    refine ⟨_, _, rfl, hreader.follows_advance hthere, ?_, ?_⟩
    · rw [hleft, Reader.cursor_advance]
    · rw [hoffshoot]
      rfl
  · have hthere := Nat.lt_of_not_le hthere
    obtain ⟨hoffshoot, hleft⟩ := window_of_lt hthere
    rw [hreader.take?_of_lt hthere]
    exact ⟨_, _, rfl, hreader.follows_self, hleft.symm, by rw [hoffshoot]; rfl⟩

/-- Each read of a reader does what the same read of a cursor does. -/
theorem Read.exists_checked (read : Read) (hreader : reader.IsValid) :
    ∃ outcome later, read.checked reader = some (outcome, later) ∧
      read.IsDoneBy reader later outcome := by
  cases read with
  | u8 => exact exists_quietly u8 Checked.Mirrors.u8 hreader rfl
  | i8 => exact exists_quietly i8 Checked.Mirrors.i8 hreader rfl
  | u16 => exact exists_quietly u16 Checked.Mirrors.u16 hreader rfl
  | i16 => exact exists_quietly i16 Checked.Mirrors.i16 hreader rfl
  | u32 => exact exists_quietly u32 Checked.Mirrors.u32 hreader rfl
  | i32 => exact exists_quietly i32 Checked.Mirrors.i32 hreader rfl
  | u64 => exact exists_quietly u64 Checked.Mirrors.u64 hreader rfl
  | take count => exact exists_quietly (take count) (Checked.Mirrors.take count) hreader rfl
  | skip count => exact exists_quietly (skip count) (Checked.Mirrors.skip count) hreader rfl
  | window count => exact exists_checked_window hreader count

end Reads

/-! ### Lists that are related place by place -/

section Lists

variable {α β : Type} {related : α → β → Prop} {values : List α} {others : List β}

theorem forall₂_getElem? (h : List.Forall₂ related values others) (place : Nat) :
    Option.Rel related values[place]? others[place]? := by
  induction h generalizing place with
  | nil => exact .none
  | cons hhead _ ih =>
    cases place with
    | zero => exact .some hhead
    | succ place => exact ih place

theorem forall₂_set (h : List.Forall₂ related values others) (place : Nat) {value : α} {other : β}
    (hvalue : related value other) :
    List.Forall₂ related (values.set place value) (others.set place other) := by
  induction h generalizing place with
  | nil => exact .nil
  | cons hhead htail ih =>
    cases place with
    | zero => exact .cons hvalue htail
    | succ place => exact .cons hhead (ih place)

end Lists

/-! ### Readers and their uses -/

namespace Handle

/-- What a use makes of a reader: one that it splits off or copies, if it does, and the one that it
leaves. -/
def Use.act? (reader : Reader) : Use → Option (Option Reader × Reader)
  | reads _ read =>
    (read.checked reader).map fun (outcome, later) ↦ (outcome.toOption.join, later)
  | copies _ => some (some reader, reader)

/-- Uses one of the readers, if no operation fails. -/
def checkedStep? (readers : List Reader) (use : Use) : Option (List Reader) :=
  match readers[use.place]? with
  | none => some readers
  | some reader =>
    (use.act? reader).map fun (made?, later) ↦ readers.set use.place later ++ made?.toList

/-- The readers that are held after uses of an outermost buffer, if no operation fails. -/
def checkedAfterUses? (bytes : List UInt8) (uses : List Use) : Option (List Reader) :=
  uses.foldlM checkedStep? [Reader.ofBytes bytes]

/-- The reader is that of the handle: its buffer is the window, and it is at the position. -/
structure IsKeptBy (bytes : List UInt8) (handle : Handle) (reader : Reader) : Prop where
  isValid : reader.IsValid
  cursor_eq : reader.cursor = handle.cursor
  base_eq : reader.base = handle.start
  data_eq : reader.data = (bytes.drop handle.start).take (handle.stop - handle.start)

section Kept

variable {bytes : List UInt8} {handle : Handle} {reader : Reader} {handles : List Handle}
  {readers : List Reader}

theorem IsKeptBy.of_follows {later : Reader} (h : handle.IsKeptBy bytes reader)
    (hlater : later.Follows reader) {cursor : Cursor} (hcursor : later.cursor = cursor) :
    IsKeptBy bytes { handle with cursor } later where
  isValid := hlater.isValid h.isValid
  cursor_eq := hcursor
  base_eq := hlater.base_eq.trans h.base_eq
  data_eq := hlater.data_eq.trans h.data_eq

/-- A window that is split off is kept by a reader with a buffer of its own. -/
theorem IsKeptBy.of_offshoot? (h : handle.IsKeptBy bytes reader) (hin : handle.IsIn bytes)
    {read : Read} {offshoot : Cursor} (hoffshoot : read.offshoot? handle.cursor = some offshoot)
    (parent? : Option Nat) :
    IsKeptBy bytes ⟨offshoot, offshoot.position, offshoot.stop, parent?⟩ (.ofCursor offshoot) := by
  obtain ⟨count, hcount, rfl⟩ := Read.exists_of_offshoot? hoffshoot
  have hlength : (handle.cursor.rest.take count).length = count := List.length_take_of_le hcount
  refine ⟨?_, rfl, rfl, ?_⟩
  · rw [← h.cursor_eq] at hcount ⊢
    exact h.isValid.window hcount
  · have hwindow : (handle.cursor.rest.take count) <+: bytes.drop handle.cursor.position :=
      (List.take_prefix _ _).trans hin.standsIn
    show handle.cursor.rest.take count = _
    rw [Cursor.stop, Cursor.remaining, Nat.add_sub_cancel_left]
    exact List.prefix_iff_eq_take.mp hwindow

/-- A use does with the reader what it does with the handle. -/
theorem IsKeptBy.exists_act? (h : handle.IsKeptBy bytes reader) (hin : handle.IsIn bytes)
    (use : Use) :
    ∃ made? later, use.act? reader = some (made?, later) ∧
      (use.after handle).IsKeptBy bytes later ∧
      List.Forall₂ (IsKeptBy bytes) (use.made? handle).toList made?.toList := by
  cases use with
  | reads place read =>
    obtain ⟨outcome, later, hchecked, hdone⟩ := read.exists_checked h.isValid
    obtain ⟨hfollows, hcursor, hoffshoot⟩ := hdone
    rw [h.cursor_eq] at hcursor hoffshoot
    refine ⟨_, later, congrArg (Option.map _) hchecked, h.of_follows hfollows hcursor, ?_⟩
    rw [hoffshoot, Use.made?]
    cases hcursor' : read.offshoot? handle.cursor with
    | none => exact .nil
    | some offshoot => exact .cons (h.of_offshoot? hin hcursor' (some place)) .nil
  | copies place =>
    refine ⟨_, reader, rfl, h, .cons ?_ .nil⟩
    exact ⟨h.isValid, h.cursor_eq, h.base_eq, h.data_eq⟩

/-- Where the handles are nested, a use of the readers does not fail, and does with them what it
does with the handles. -/
theorem AreNested.exists_checkedStep? (h : AreNested bytes handles)
    (hkept : List.Forall₂ (IsKeptBy bytes) handles readers) (use : Use) :
    ∃ later, checkedStep? readers use = some later ∧
      List.Forall₂ (IsKeptBy bytes) (Handle.step handles use) later := by
  have hused := forall₂_getElem? hkept use.place
  rw [checkedStep?]
  cases hhandle : handles[use.place]? with
  | none =>
    rw [hhandle] at hused
    generalize readers[use.place]? = found at hused ⊢
    cases hused
    refine ⟨readers, rfl, ?_⟩
    rw [Handle.step, hhandle]
    exact hkept
  | some handle =>
    rw [hhandle] at hused
    generalize readers[use.place]? = found at hused ⊢
    cases hused with
    | some hreader =>
      obtain ⟨made?, later, hact, hlater, hmade⟩ :=
        hreader.exists_act? (h.isIn handle (List.mem_of_getElem? hhandle)) use
      refine ⟨_, congrArg (Option.map _) hact, ?_⟩
      rw [step_of_some hhandle]
      exact List.rel_append (forall₂_set hkept use.place hlater) hmade

/-- So it is with any uses. -/
theorem AreNested.exists_foldlM (h : AreNested bytes handles)
    (hkept : List.Forall₂ (IsKeptBy bytes) handles readers) (uses : List Use) :
    ∃ later, uses.foldlM checkedStep? readers = some later ∧
      List.Forall₂ (IsKeptBy bytes) (uses.foldl Handle.step handles) later := by
  induction uses generalizing handles readers with
  | nil => exact ⟨readers, rfl, hkept⟩
  | cons use uses ih =>
    obtain ⟨next, hnext, hkeptNext⟩ := h.exists_checkedStep? hkept use
    obtain ⟨later, hlater, hkeptLater⟩ := ih (h.step use) hkeptNext
    refine ⟨later, ?_, hkeptLater⟩
    rw [List.foldlM_cons, hnext]
    exact hlater

theorem exists_checkedAfterUses? (hbytes : bytes.length < 2 ^ 63) (uses : List Use) :
    ∃ readers, checkedAfterUses? bytes uses = some readers ∧
      List.Forall₂ (IsKeptBy bytes) (afterUses bytes uses) readers := by
  have hstart : (outermost bytes).IsKeptBy bytes (.ofBytes bytes) :=
    ⟨Reader.isValid_ofBytes hbytes, rfl, rfl, (List.take_of_length_le (Nat.le_refl _)).symm⟩
  exact (areNested_outermost bytes).exists_foldlM (.cons hstart .nil) uses

/-- What a reader answers is what its handle shows. -/
theorem IsKeptBy.answers (h : handle.IsKeptBy bytes reader) :
    reader.position? = some handle.cursor.position ∧
      reader.remaining? = some handle.cursor.remaining ∧
      reader.rest? = some handle.cursor.rest := by
  rw [← h.cursor_eq]
  exact ⟨h.isValid.position?_eq, h.isValid.remaining?_eq, h.isValid.rest?_eq⟩

end Kept

end Handle

/-! ### Windows -/

section Windows

open Handle

/-- What is seen through the handles of an outermost buffer, after any reads, splits and copies, of
which any may have failed.

A handle shows the bytes of the outermost buffer from its position on, as many as remain, up to the
end of its window, which is inside the buffer. Each handle but the first was made from one in front
of it, inside whose window its own window is. A window that is split off covers just the bytes that
its parent passes, and one that is not there changes nothing; a copy shows what the copied handle
shows. A use changes no other handle, so that what is seen through a handle is what it would be if
only that handle were used from then on. And readers, which count from the start of a buffer of
their own, show the same: their buffers are the windows, and no operation on them fails. -/
theorem handles_keep_to_their_windows (bytes : List UInt8) (uses : List Use) :
    (∀ handle ∈ afterUses bytes uses,
      handle.cursor.rest =
        (bytes.drop handle.cursor.position).take handle.cursor.remaining ∧
      handle.start ≤ handle.cursor.position ∧
      handle.cursor.position + handle.cursor.remaining = handle.stop ∧
      handle.stop ≤ bytes.length) ∧
    (∀ (place : Nat) (handle : Handle), (afterUses bytes uses)[place]? = some handle →
      IsMadeFrom bytes (afterUses bytes uses) place handle ∧
      (∀ count ≤ handle.cursor.remaining,
        afterUses bytes (uses ++ [.reads place (.window count)]) =
          (afterUses bytes uses).set place
              { handle with cursor := handle.cursor.advance count } ++
            [⟨⟨handle.cursor.rest.take count, handle.cursor.position⟩, handle.cursor.position,
              handle.cursor.position + count, some place⟩]) ∧
      (∀ count, handle.cursor.remaining < count →
        afterUses bytes (uses ++ [.reads place (.window count)]) = afterUses bytes uses) ∧
      afterUses bytes (uses ++ [.copies place]) =
        afterUses bytes uses ++ [{ handle with parent? := some place }]) ∧
    (∀ place < (afterUses bytes uses).length, ∀ more : List Use,
      ((∀ use ∈ more, use.place ≠ place) →
        (afterUses bytes (uses ++ more))[place]? = (afterUses bytes uses)[place]?) ∧
      (afterUses bytes (uses ++ more))[place]? =
        (afterUses bytes (uses ++ more.filter fun use ↦ use.place = place))[place]?) ∧
    (bytes.length < 2 ^ 63 → ∃ readers, checkedAfterUses? bytes uses = some readers ∧
      List.Forall₂ (fun handle reader ↦
        reader.position? = some handle.cursor.position ∧
        reader.remaining? = some handle.cursor.remaining ∧
        reader.rest? = some handle.cursor.rest ∧ reader.base = handle.start ∧
        reader.data = (bytes.drop handle.start).take (handle.stop - handle.start))
      (afterUses bytes uses) readers) := by
  have hnested := areNested_afterUses bytes uses
  have happend (more : List Use) :
      afterUses bytes (uses ++ more) = more.foldl step (afterUses bytes uses) :=
    List.foldl_append
  refine ⟨fun handle hhandle ↦ ?_, fun place handle hhandle ↦ ⟨?_, ?_, ?_, ?_⟩,
    fun place hplace more ↦ ?_, fun hbytes ↦ ?_⟩
  · have hin := hnested.isIn handle hhandle
    exact ⟨hin.rest_eq, hin.start_le, hin.stop_eq, hin.stop_le⟩
  · exact hnested.isMadeFrom place handle hhandle
  · intro count hcount
    rw [happend]
    exact step_window_of_le hhandle hcount
  · intro count hcount
    rw [happend]
    exact step_window_of_lt hhandle hcount
  · rw [happend]
    exact step_copies hhandle
  · have hfilter := getElem?_foldl_step_filter hplace more
    simp only [happend]
    refine ⟨fun hothers ↦ ?_, hfilter⟩
    have hnone : (more.filter fun use ↦ use.place = place) = [] := by
      simpa [List.filter_eq_nil_iff] using hothers
    rw [hfilter, hnone, List.foldl_nil]
  · obtain ⟨readers, hreaders, hkept⟩ := exists_checkedAfterUses? hbytes uses
    refine ⟨readers, hreaders, hkept.imp fun handle reader h ↦ ?_⟩
    obtain ⟨hposition, hremaining, hrest⟩ := h.answers
    exact ⟨hposition, hremaining, hrest, h.base_eq, h.data_eq⟩

/-- Six bytes, of which the four in the middle are a window with a window inside. -/
def nestedWindows : List UInt8 := [0xAA, 0x00, 0x01, 0x02, 0x03, 0xBB]

/-- Reads, splits and a copy, some of which fail for want of bytes. -/
def nestingUses : List Use :=
  [.reads 0 .u8, .reads 0 (.window 4), .reads 1 (.window 2), .reads 1 .u32, .copies 1,
    .reads 2 .i16, .reads 2 (.window 1), .reads 0 .u64]

/-- The handle at 2 has used its window up, and those at 1 and 3 show the same two bytes, whatever
is then done with the others. -/
theorem handles_keep_to_their_windows_nestedWindows :
    afterUses nestedWindows nestingUses =
      [⟨⟨[0xBB], 5⟩, 0, 6, none⟩, ⟨⟨[0x02, 0x03], 3⟩, 1, 5, some 0⟩, ⟨⟨[], 3⟩, 1, 3, some 1⟩,
        ⟨⟨[0x02, 0x03], 3⟩, 1, 5, some 1⟩] ∧
    IsMadeFrom nestedWindows (afterUses nestedWindows nestingUses) 2 ⟨⟨[], 3⟩, 1, 3, some 1⟩ ∧
    (2 ≤ [0x02, 0x03].length ∧
      afterUses nestedWindows (nestingUses ++ [.reads 3 (.window 2)]) =
        (afterUses nestedWindows nestingUses).set 3 ⟨⟨[], 5⟩, 1, 5, some 1⟩ ++
          [⟨⟨[0x02, 0x03], 3⟩, 3, 5, some 3⟩]) ∧
    ([0x02, 0x03].length < 7 ∧
      afterUses nestedWindows (nestingUses ++ [.reads 3 (.window 7)]) =
        afterUses nestedWindows nestingUses) ∧
    (afterUses nestedWindows (nestingUses ++ [.reads 3 .u16, .reads 0 .u8, .copies 2]))[1]? =
      some ⟨⟨[0x02, 0x03], 3⟩, 1, 5, some 0⟩ ∧
    nestedWindows.length < 2 ^ 63 ∧
    ∃ readers, checkedAfterUses? nestedWindows nestingUses = some readers ∧
      readers.map (·.base) = [0, 1, 1, 1] ∧ readers.map Reader.rest? =
        [some [0xBB], some [0x02, 0x03], some [], some [0x02, 0x03]] := by
  have hhandles : afterUses nestedWindows nestingUses =
      [⟨⟨[0xBB], 5⟩, 0, 6, none⟩, ⟨⟨[0x02, 0x03], 3⟩, 1, 5, some 0⟩, ⟨⟨[], 3⟩, 1, 3, some 1⟩,
        ⟨⟨[0x02, 0x03], 3⟩, 1, 5, some 1⟩] := by
    decide
  obtain ⟨-, hplaces, hothers, hreaders⟩ :=
    handles_keep_to_their_windows nestedWindows nestingUses
  have hinner : (afterUses nestedWindows nestingUses)[2]? = some ⟨⟨[], 3⟩, 1, 3, some 1⟩ := by
    rw [hhandles]
    rfl
  have hcopy : (afterUses nestedWindows nestingUses)[3]? =
      some ⟨⟨[0x02, 0x03], 3⟩, 1, 5, some 1⟩ := by
    rw [hhandles]
    rfl
  obtain ⟨-, hthere, hmissing, -⟩ := hplaces 3 _ hcopy
  have hlength : 1 < (afterUses nestedWindows nestingUses).length := by
    rw [hhandles]
    decide
  have hkept := (hothers 1 hlength [.reads 3 .u16, .reads 0 .u8, .copies 2]).1 (by decide)
  have hshort : nestedWindows.length < 2 ^ 63 := by decide
  obtain ⟨readers, hrun, hshow⟩ := hreaders hshort
  have hbases : (afterUses nestedWindows nestingUses).map (·.start) = readers.map (·.base) := by
    rw [← List.forall₂_eq_eq_eq, List.forall₂_map_left_iff, List.forall₂_map_right_iff]
    exact hshow.imp fun _ _ h ↦ h.2.2.2.1.symm
  have hrests : (afterUses nestedWindows nestingUses).map (fun handle ↦ some handle.cursor.rest) =
      readers.map Reader.rest? := by
    rw [← List.forall₂_eq_eq_eq, List.forall₂_map_left_iff, List.forall₂_map_right_iff]
    exact hshow.imp fun _ _ h ↦ h.2.2.1.symm
  refine ⟨hhandles, (hplaces 2 _ hinner).1, ⟨by decide, hthere 2 (by decide)⟩,
    ⟨by decide, hmissing 7 (by decide)⟩, ?_, hshort, readers, hrun, ?_, ?_⟩
  · rw [hkept, hhandles]
    rfl
  · rw [← hbases, hhandles]
    rfl
  · rw [← hrests, hhandles]
    rfl

end Windows

end MonitorAudit
