import MonitorAudit.Proofs.Bytes.Word

/-!
# Formats

A `Format` says which bytes are which values, and the place where the bytes stand may matter. A
decoder reads a format (`Decoder.Reads`) if it succeeds exactly where bytes of the format are in
front of the cursor, answers the value that they are, and leaves the cursor behind them. This is
soundness and completeness at once, and it is closed under sequencing (`Reads.bind`), so the format
of a decoder is put together from the formats of its parts.

`Decoder.Accepts` is a decoder that is given bytes by themselves and uses all of them. A decoder
whose format does not depend on the place reads the format of the bytes that it accepts
(`Reads.accepts`): its success depends neither on the place of the bytes nor on what follows them.

`Rows` is a format repeated; `Table8` and `Table16` are tables, whose number of rows is in front of
them. A decoder that takes all the bytes it is given reads no format, since what it takes depends on
where they end; `UsesUp` is what such a decoder and any other have in common.
-/

set_option autoImplicit false

namespace MonitorAudit

/-- Which bytes are which values, given the offset at which the bytes stand. -/
def Format (α : Type) : Type := Nat → List UInt8 → α → Prop

/-- Bytes of one format and, behind them, bytes of a format that depends on the first value. -/
def Format.bind {α β : Type} (first : Format α) (next : α → Format β) : Format β :=
  fun position bytes value ↦ ∃ (middle : α) (front back : List UInt8),
    bytes = front ++ back ∧ first position front middle ∧
      next middle (position + front.length) back value

/-- Bytes that are split into stretches, one for each of the values. -/
inductive Rows {α : Type} (row : List UInt8 → α → Prop) : List UInt8 → List α → Prop
  | nil : Rows row [] []
  | cons {bytes rest : List UInt8} {value : α} {values : List α}
      (head : row bytes value) (tail : Rows row rest values) :
      Rows row (bytes ++ rest) (value :: values)

/-- An 8-bit number of rows and then the rows. -/
inductive Table8 {α : Type} (row : List UInt8 → α → Prop) : List UInt8 → List α → Prop
  | intro {bytes : List UInt8} {values : List α} (count : UInt8)
      (length_eq : values.length = count.toNat) (rows : Rows row bytes values) :
      Table8 row (count :: bytes) values

/-- A 16-bit number of rows and then the rows. -/
inductive Table16 {α : Type} (row : List UInt8 → α → Prop) : List UInt8 → List α → Prop
  | intro {bytes : List UInt8} {values : List α} (count : UInt16)
      (length_eq : values.length = count.toNat) (rows : Rows row bytes values) :
      Table16 row (word16 count ++ bytes) values

/-- Rows that are the bytes of their values are the bytes of the values one behind the other. -/
theorem rows_eq_iff {α : Type} (encode : α → List UInt8) (bytes : List UInt8) (values : List α) :
    Rows (fun row value ↦ row = encode value) bytes values ↔ bytes = values.flatMap encode := by
  constructor
  · intro hrows
    induction hrows with
    | nil => rfl
    | cons head tail ih => rw [head, ih, List.flatMap_cons]
  · rintro rfl
    induction values with
    | nil => exact .nil
    | cons value values ih => exact .cons rfl ih

/-- Each of the values has a stretch of its own. -/
theorem Rows.exists_of_mem {α : Type} {row : List UInt8 → α → Prop} {bytes : List UInt8}
    {values : List α} (h : Rows row bytes values) : ∀ value ∈ values, ∃ part, row part value := by
  induction h with
  | nil => simp
  | @cons front rest value values head tail ih =>
    intro found hfound
    rcases List.mem_cons.mp hfound with rfl | hfound
    · exact ⟨front, head⟩
    · exact ih found hfound

theorem Table16.exists_of_mem {α : Type} {row : List UInt8 → α → Prop} {bytes : List UInt8}
    {values : List α} (h : Table16 row bytes values) :
    ∀ value ∈ values, ∃ part, row part value := by
  obtain ⟨count, length_eq, rows⟩ := h
  exact rows.exists_of_mem

namespace Decoder

variable {ε φ α β : Type}

/-- The decoder succeeds exactly where bytes of the format stand. It answers the value that they
are and leaves the cursor behind them. -/
def Reads (decoder : Decoder ε α) (format : Format α) : Prop :=
  ∀ cursor value moved, decoder cursor = (.ok value, moved) ↔
    ∃ bytes, format cursor.position bytes value ∧ cursor.rest = bytes ++ moved.rest ∧
      moved.position = cursor.position + bytes.length

/-- The decoder, given these bytes by themselves, answers the value and uses them up. -/
def Accepts (decoder : Decoder ε α) (bytes : List UInt8) (value : α) : Prop :=
  decoder (Cursor.ofBytes bytes) = (.ok value, ⟨[], bytes.length⟩)

/-- The decoder answers the value and uses up the bytes exactly if the bytes are the value. -/
def UsesUp (decoder : Decoder ε α) (form : List UInt8 → α → Prop) : Prop :=
  ∀ start bytes value,
    (∃ left, decoder ⟨bytes, start⟩ = (.ok value, left) ∧ left.isEmpty = true) ↔ form bytes value

/-- A function of what is used up is used up where that is. -/
theorem UsesUp.map {decoder : Decoder ε α} {form : List UInt8 → α → Prop}
    (h : decoder.UsesUp form) (f : α → β) :
    (f <$> decoder).UsesUp fun bytes value ↦ ∃ found, form bytes found ∧ value = f found := by
  intro start bytes value
  rw [map_apply]
  constructor
  · rintro ⟨left, hdecoder, hleft⟩
    split at hdecoder
    · rename_i found between hfound
      obtain ⟨rfl, rfl⟩ : f found = value ∧ between = left := by simpa using hdecoder
      exact ⟨found, (h start bytes found).mp ⟨between, hfound, hleft⟩, rfl⟩
    · simp at hdecoder
  · rintro ⟨found, hfound, rfl⟩
    obtain ⟨left, hdecoder, hleft⟩ := (h start bytes found).mpr hfound
    exact ⟨left, by rw [hdecoder], hleft⟩

/-- Any bytes are used up by taking all of them. -/
theorem usesUp_takeRest : (takeRest : Decoder ε (List UInt8)).UsesUp fun bytes taken ↦
    taken = bytes := by
  intro start bytes taken
  constructor
  · rintro ⟨left, hdecoder, -⟩
    obtain ⟨rfl, -⟩ : bytes = taken ∧ _ := by simpa [takeRest] using hdecoder
    rfl
  · rintro rfl
    exact ⟨_, rfl, rfl⟩

namespace Reads

/-! ### What a format says about a decoder -/

/-- Two formats that say the same can stand for each other. -/
theorem congr {decoder : Decoder ε α} {format other : Format α} (h : Reads decoder format)
    (hformat : ∀ position bytes value, format position bytes value ↔ other position bytes value) :
    Reads decoder other := by
  intro cursor value moved
  rw [h cursor value moved]
  exact exists_congr fun bytes ↦ and_congr_left fun _ ↦ hformat cursor.position bytes value

/-- Bytes of the format are read wherever they stand and whatever follows them. -/
theorem run {decoder : Decoder ε α} {format : Format α} (h : Reads decoder format)
    (position : Nat) {bytes : List UInt8} {value : α} (hbytes : format position bytes value)
    (tail : List UInt8) :
    decoder ⟨bytes ++ tail, position⟩ = (.ok value, ⟨tail, position + bytes.length⟩) :=
  (h _ value _).mpr ⟨bytes, hbytes, rfl, rfl⟩

/-- Where the format does not depend on the place, its bytes are those that are accepted. -/
theorem accepts_iff {decoder : Decoder ε α} {form : List UInt8 → α → Prop}
    (h : Reads decoder fun _ ↦ form) (bytes : List UInt8) (value : α) :
    decoder.Accepts bytes value ↔ form bytes value := by
  rw [Accepts, h]
  constructor
  · rintro ⟨used, hused, hrest, -⟩
    have hbytes : bytes = used := by simpa [Cursor.ofBytes] using hrest
    rwa [hbytes]
  · intro hbytes
    exact ⟨bytes, hbytes, (List.append_nil bytes).symm, (Nat.zero_add bytes.length).symm⟩

/-- A decoder whose format does not depend on the place reads what it accepts. -/
theorem accepts {decoder : Decoder ε α} {form : List UInt8 → α → Prop}
    (h : Reads decoder fun _ ↦ form) : Reads decoder fun _ ↦ decoder.Accepts :=
  h.congr fun _ bytes value ↦ (h.accepts_iff bytes value).symm

/-- Where the format does not depend on the place, its bytes are those that are used up. -/
theorem usesUp {decoder : Decoder ε α} {form : List UInt8 → α → Prop}
    (h : Reads decoder fun _ ↦ form) : decoder.UsesUp form := by
  intro start bytes value
  constructor
  · rintro ⟨left, hdecoder, hleft⟩
    obtain ⟨used, hused, hrest, -⟩ := (h _ _ _).mp hdecoder
    have hbytes : bytes = used := by
      rw [List.isEmpty_iff.mp hleft, List.append_nil] at hrest
      exact hrest
    rwa [hbytes]
  · intro hbytes
    have hrun := h.run start hbytes []
    rw [List.append_nil] at hrun
    exact ⟨_, hrun, rfl⟩

/-! ### Sequencing -/

theorem pure (value : α) :
    Reads (Pure.pure value : Decoder ε α) fun _ bytes found ↦ bytes = [] ∧ found = value := by
  intro cursor found moved
  rw [pure_apply]
  constructor
  · intro h
    obtain ⟨hvalue, hmoved⟩ : value = found ∧ cursor = moved := by simpa using h
    exact ⟨[], ⟨rfl, hvalue.symm⟩, by simp [hmoved]⟩
  · rintro ⟨bytes, ⟨rfl, rfl⟩, hrest, hposition⟩
    obtain ⟨rest, position⟩ := cursor
    obtain ⟨left, stop⟩ := moved
    simp_all

theorem fail (fault : ε) : Reads (Decoder.fail fault : Decoder ε α) fun _ _ _ ↦ False := by
  intro cursor value moved
  simp [Decoder.fail]

/-- A decoder behind another reads their formats one behind the other. -/
theorem bind {first : Decoder ε α} {next : α → Decoder ε β} {format : Format α}
    {formats : α → Format β} (hfirst : Reads first format)
    (hnext : ∀ middle, Reads (next middle) (formats middle)) :
    Reads (first >>= next) (format.bind formats) := by
  intro cursor value moved
  rw [bind_apply]
  constructor
  · intro h
    split at h
    · rename_i middle between hbetween
      obtain ⟨front, hfront, hrest, hposition⟩ := (hfirst cursor middle between).mp hbetween
      obtain ⟨back, hback, hrest', hposition'⟩ := (hnext middle between value moved).mp h
      rw [hposition] at hback hposition'
      refine ⟨front ++ back, ⟨middle, front, back, rfl, hfront, hback⟩, ?_, ?_⟩
      · rw [hrest, hrest', List.append_assoc]
      · rw [hposition', List.length_append, Nat.add_assoc]
    · simp at h
  · rintro ⟨bytes, ⟨middle, front, back, rfl, hfront, hback⟩, hrest, hposition⟩
    have hbetween : first cursor =
        (.ok middle, ⟨back ++ moved.rest, cursor.position + front.length⟩) :=
      (hfirst _ _ _).mpr ⟨front, hfront, by rw [hrest, List.append_assoc], rfl⟩
    rw [hbetween]
    refine (hnext middle _ value moved).mpr ⟨back, hback, rfl, ?_⟩
    rw [hposition, List.length_append, Nat.add_assoc]

/-- A function of a value is read where the value is. -/
theorem bind_pure {decoder : Decoder ε α} {format : Format α} (h : Reads decoder format)
    (f : α → β) :
    Reads (decoder >>= fun found ↦ Pure.pure (f found)) fun position bytes value ↦
      ∃ found, format position bytes found ∧ value = f found := by
  refine (h.bind fun found ↦ Reads.pure (f found)).congr fun position bytes value ↦ ?_
  constructor
  · rintro ⟨found, front, back, rfl, hfront, rfl, rfl⟩
    exact ⟨found, by rwa [List.append_nil], rfl⟩
  · rintro ⟨found, hfound, rfl⟩
    exact ⟨found, bytes, [], (List.append_nil bytes).symm, hfound, rfl, rfl⟩

/-- A function of a value is read where a format consists of the images of the values. -/
theorem bind_pure_of {decoder : Decoder ε α} {format : Format α} {other : Format β} {f : α → β}
    (h : Reads decoder format)
    (hintro : ∀ position bytes found, format position bytes found → other position bytes (f found))
    (helim : ∀ position bytes value, other position bytes value →
      ∃ found, format position bytes found ∧ value = f found) :
    Reads (decoder >>= fun found ↦ Pure.pure (f found)) other := by
  refine (h.bind_pure f).congr fun position bytes value ↦ ⟨?_, helim position bytes value⟩
  rintro ⟨found, hfound, rfl⟩
  exact hintro position bytes found hfound

/-- The wording of faults is no part of a format. -/
theorem mapFault {decoder : Decoder ε α} {format : Format α} (h : Reads decoder format)
    (f : ε → φ) : Reads (decoder.mapFault f) format := by
  intro cursor value moved
  rw [← h cursor value moved, Decoder.mapFault]
  split <;> simp_all

/-- A test between two decoders is a test between their formats. -/
theorem ite {condition : Prop} [Decidable condition] {yes no : Decoder ε α}
    {format other : Format α} (hyes : condition → Reads yes format)
    (hno : ¬ condition → Reads no other) :
    Reads (if condition then yes else no) fun position bytes value ↦
      condition ∧ format position bytes value ∨ ¬ condition ∧ other position bytes value := by
  by_cases hcondition : condition
  · simpa [hcondition] using hyes hcondition
  · simpa [hcondition] using hno hcondition

/-- A test that may refuse narrows a format down. -/
theorem guard {condition : Prop} [Decidable condition] {decoder : Decoder ε α} {format : Format α}
    (fault : ε) (h : ¬ condition → Reads decoder format) :
    Reads (if condition then Decoder.fail fault else decoder) fun position bytes value ↦
      ¬ condition ∧ format position bytes value :=
  (Reads.ite (fun _ ↦ Reads.fail fault) h).congr fun _ _ _ ↦ by simp

/-- What follows the offset of the cursor is read at that offset. -/
theorem position_bind {next : Nat → Decoder ε β} {formats : Nat → Format β}
    (hnext : ∀ start, Reads (next start) (formats start)) :
    Reads (Decoder.position >>= next) fun position ↦ formats position position := by
  intro cursor value moved
  exact hnext cursor.position cursor value moved

/-- A computation that reads nothing has to succeed. -/
theorem ofExcept_bind {result : Except ε α} {next : α → Decoder ε β} {formats : α → Format β}
    (hnext : ∀ middle, Reads (next middle) (formats middle)) :
    Reads (Decoder.ofExcept result >>= next) fun position bytes value ↦
      ∃ middle, result = .ok middle ∧ formats middle position bytes value := by
  intro cursor value moved
  rw [bind_apply, Decoder.ofExcept]
  cases result with
  | error fault => simp
  | ok middle => simpa using hnext middle cursor value moved

/-- A computation whose fault is reworded has to succeed all the same. -/
theorem mapError_bind {result : Except φ α} (f : φ → ε) {next : α → Decoder ε β}
    {formats : α → Format β} (hnext : ∀ middle, Reads (next middle) (formats middle)) :
    Reads (Decoder.ofExcept (result.mapError f) >>= next) fun position bytes value ↦
      ∃ middle, result = .ok middle ∧ formats middle position bytes value := by
  refine (ofExcept_bind hnext).congr fun position bytes value ↦ ?_
  cases result <;> simp [Except.mapError]

/-! ### Bytes and words -/

section Words

variable [OfEndOfData ε]

/-- So many bytes are read as they are. -/
theorem take (count : Nat) :
    Reads (Decoder.take count : Decoder ε (List UInt8)) fun _ bytes value ↦
      bytes = value ∧ value.length = count := by
  intro cursor value moved
  by_cases hcount : count ≤ cursor.remaining
  · rw [Decoder.take, Cursor.splitAt?_of_le hcount]
    have hlength : (cursor.rest.take count).length = count := by
      rw [List.length_take]
      exact Nat.min_eq_left hcount
    constructor
    · intro h
      obtain ⟨rfl, rfl⟩ : cursor.rest.take count = value ∧ cursor.advance count = moved := by
        simpa using h
      refine ⟨_, ⟨rfl, hlength⟩, (List.take_append_drop count cursor.rest).symm, ?_⟩
      rw [hlength]
      rfl
    · rintro ⟨bytes, ⟨rfl, rfl⟩, hrest, hposition⟩
      obtain ⟨left, stop⟩ := moved
      simp_all [Cursor.advance]
  · rw [Decoder.take, Cursor.splitAt?_of_lt (Nat.lt_of_not_le hcount)]
    constructor
    · simp
    · rintro ⟨bytes, ⟨rfl, rfl⟩, hrest, -⟩
      have hlength : cursor.remaining = bytes.length + moved.rest.length := by
        rw [Cursor.remaining, hrest, List.length_append]
      omega

/-- So many bytes are passed over, whatever they are. -/
theorem skip (count : Nat) :
    Reads (Decoder.skip count : Decoder ε Unit) fun _ bytes _ ↦ bytes.length = count := by
  refine ((take count).bind fun _ ↦ Reads.pure ()).congr fun position bytes value ↦ ?_
  constructor
  · rintro ⟨taken, front, back, rfl, ⟨rfl, hlength⟩, rfl, -⟩
    rwa [List.append_nil]
  · intro hlength
    exact ⟨bytes, bytes, [], (List.append_nil bytes).symm, ⟨rfl, hlength⟩, rfl, rfl⟩

/-- So many bytes are split off as they are, with the offset at which they stand. -/
theorem window (count : Nat) :
    Reads (Decoder.window count : Decoder ε Cursor) fun position bytes payload ↦
      payload = ⟨bytes, position⟩ ∧ bytes.length = count := by
  refine (position_bind fun start ↦ (take count).bind_pure fun bytes ↦ Cursor.mk bytes start).congr
    fun position bytes payload ↦ ?_
  constructor
  · rintro ⟨taken, ⟨rfl, hlength⟩, rfl⟩
    exact ⟨rfl, hlength⟩
  · rintro ⟨rfl, hlength⟩
    exact ⟨bytes, ⟨rfl, hlength⟩, rfl⟩

/-- An unsigned 8-bit number is its own byte. -/
theorem u8 : Reads (Decoder.u8 : Decoder ε UInt8) fun _ bytes value ↦ bytes = [value] := by
  refine ((take 1).bind_pure fun bytes ↦ UInt8.ofNat (bigEndian bytes)).congr
    fun position bytes value ↦ ?_
  constructor
  · rintro ⟨taken, ⟨rfl, hlength⟩, rfl⟩
    obtain ⟨byte, rfl⟩ := List.length_eq_one_iff.mp hlength
    simp [bigEndian]
  · rintro rfl
    exact ⟨[value], ⟨rfl, rfl⟩, by simp [bigEndian]⟩

/-- An unsigned 16-bit number is read from its two bytes. -/
theorem u16 : Reads (Decoder.u16 : Decoder ε UInt16) fun _ bytes value ↦ bytes = word16 value := by
  refine ((take 2).bind_pure fun bytes ↦ UInt16.ofNat (bigEndian bytes)).congr
    fun position bytes value ↦ ?_
  constructor
  · rintro ⟨taken, ⟨rfl, hlength⟩, rfl⟩
    exact eq_word16_of_length hlength
  · rintro rfl
    exact ⟨_, ⟨rfl, length_word16 value⟩, (ofNat_bigEndian_word16 value).symm⟩

/-- An unsigned 32-bit number is read from its four bytes. -/
theorem u32 : Reads (Decoder.u32 : Decoder ε UInt32) fun _ bytes value ↦ bytes = word32 value := by
  refine ((take 4).bind_pure fun bytes ↦ UInt32.ofNat (bigEndian bytes)).congr
    fun position bytes value ↦ ?_
  constructor
  · rintro ⟨taken, ⟨rfl, hlength⟩, rfl⟩
    exact eq_word32_of_length hlength
  · rintro rfl
    exact ⟨_, ⟨rfl, length_word32 value⟩, (ofNat_bigEndian_word32 value).symm⟩

/-- An unsigned 64-bit number is read from its eight bytes. -/
theorem u64 : Reads (Decoder.u64 : Decoder ε UInt64) fun _ bytes value ↦ bytes = word64 value := by
  refine (u32.bind fun high ↦ u32.bind_pure _).congr fun position bytes value ↦ ?_
  rw [word64_eq_iff]
  constructor
  · rintro ⟨high, _, _, rfl, rfl, low, rfl, rfl⟩
    exact ⟨high, low, rfl, rfl⟩
  · rintro ⟨high, low, rfl, rfl⟩
    exact ⟨high, _, _, rfl, rfl, low, rfl, rfl⟩

/-- A signed 8-bit number is read from its byte. -/
theorem i8 : Reads (Decoder.i8 : Decoder ε Int8) fun _ bytes value ↦ bytes = [signed8 value] := by
  refine (u8.bind_pure UInt8.toInt8).congr fun position bytes value ↦ ?_
  constructor
  · rintro ⟨byte, rfl, rfl⟩
    rfl
  · rintro rfl
    exact ⟨_, rfl, rfl⟩

/-- A signed 16-bit number is read from its two bytes. -/
theorem i16 :
    Reads (Decoder.i16 : Decoder ε Int16) fun _ bytes value ↦ bytes = signed16 value := by
  refine (u16.bind_pure UInt16.toInt16).congr fun position bytes value ↦ ?_
  constructor
  · rintro ⟨word, rfl, rfl⟩
    rfl
  · rintro rfl
    exact ⟨_, rfl, rfl⟩

/-- A signed 32-bit number is read from its four bytes. -/
theorem i32 :
    Reads (Decoder.i32 : Decoder ε Int32) fun _ bytes value ↦ bytes = signed32 value := by
  refine (u32.bind_pure UInt32.toInt32).congr fun position bytes value ↦ ?_
  constructor
  · rintro ⟨word, rfl, rfl⟩
    rfl
  · rintro rfl
    exact ⟨_, rfl, rfl⟩

end Words

/-! ### Repetition -/

/-- A decoder repeated reads so many rows of its format. -/
theorem times {decoder : Decoder ε α} {row : List UInt8 → α → Prop}
    (h : Reads decoder fun _ ↦ row) (count : Nat) :
    Reads (Decoder.times count decoder) fun _ bytes values ↦
      values.length = count ∧ Rows row bytes values := by
  induction count with
  | zero =>
    refine (Reads.pure []).congr fun position bytes values ↦ ?_
    constructor
    · rintro ⟨rfl, rfl⟩
      exact ⟨rfl, .nil⟩
    · rintro ⟨hlength, hrows⟩
      cases hrows with
      | nil => exact ⟨rfl, rfl⟩
      | cons head tail => simp at hlength
  | succ count ih =>
    rw [times_succ]
    refine (h.bind fun value ↦ ih.bind fun values ↦ Reads.pure (value :: values)).congr
      fun position bytes values ↦ ?_
    constructor
    · rintro ⟨value, front, -, rfl, hfront, values, back, -, rfl, ⟨hlength, hrows⟩, rfl, rfl⟩
      rw [List.append_nil]
      exact ⟨by rw [List.length_cons, hlength], .cons hfront hrows⟩
    · rintro ⟨hlength, hrows⟩
      cases hrows with
      | nil => simp at hlength
      | cons head tail =>
        exact ⟨_, _, _, rfl, head, _, _, [], (List.append_nil _).symm,
          ⟨Nat.succ.inj hlength, tail⟩, rfl, rfl⟩

/-- A table with an 8-bit count is read from its number of rows and its rows. -/
theorem counted8 [OfEndOfData ε] {decoder : Decoder ε α} {row : List UInt8 → α → Prop}
    (h : Reads decoder fun _ ↦ row) :
    Reads (Decoder.counted8 decoder) fun _ ↦ Table8 row := by
  refine (u8.bind fun count ↦ h.times count.toNat).congr fun position bytes values ↦ ?_
  constructor
  · rintro ⟨count, front, back, rfl, rfl, hlength, hrows⟩
    exact .intro count hlength hrows
  · rintro ⟨count, hlength, hrows⟩
    exact ⟨count, [count], _, rfl, rfl, hlength, hrows⟩

/-- A table with a 16-bit count is read from its number of rows and its rows. -/
theorem counted16 [OfEndOfData ε] {decoder : Decoder ε α} {row : List UInt8 → α → Prop}
    (h : Reads decoder fun _ ↦ row) :
    Reads (Decoder.counted16 decoder) fun _ ↦ Table16 row := by
  refine (u16.bind fun count ↦ h.times count.toNat).congr fun position bytes values ↦ ?_
  constructor
  · rintro ⟨count, front, back, rfl, rfl, hlength, hrows⟩
    exact .intro count hlength hrows
  · rintro ⟨count, hlength, hrows⟩
    exact ⟨count, _, _, rfl, rfl, hlength, hrows⟩

end Reads

end Decoder

end MonitorAudit
