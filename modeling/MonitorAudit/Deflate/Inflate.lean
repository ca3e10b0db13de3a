import MonitorAudit.Bytes.Decoder
import MonitorAudit.Deflate.PrefixCode

/-!
# Decompression

A compressed stream is a row of blocks, the last of which is marked. A block holds its bytes as they
are, or as tokens in two prefix codes, which are fixed or described in front of the block. A
`Token` is a byte, the end of the block, or a stretch of earlier output that is repeated.

`inflate` decompresses a stream; what stands behind the last block is not looked at. In front of
the output lie zeros, so a stretch that reaches back too far repeats those.
-/

set_option autoImplicit false

namespace MonitorAudit.Deflate

/-! ### Tokens -/

/-- A piece of a compressed block. -/
inductive Token where
  | literal (byte : UInt8)
  | endOfBlock
  | copy (length distance : Nat)
  deriving DecidableEq, Repr

/-- The least length of each length symbol, and the number of bits that add to it. -/
def lengthRows : List (Nat × Nat) :=
  [(3, 0), (4, 0), (5, 0), (6, 0), (7, 0), (8, 0), (9, 0), (10, 0), (11, 1), (13, 1), (15, 1),
    (17, 1), (19, 2), (23, 2), (27, 2), (31, 2), (35, 3), (43, 3), (51, 3), (59, 3), (67, 4),
    (83, 4), (99, 4), (115, 4), (131, 5), (163, 5), (195, 5), (227, 5), (258, 0)]

/-- The least distance of each distance symbol, and the number of bits that add to it. -/
def distanceRows : List (Nat × Nat) :=
  [(1, 0), (2, 0), (3, 0), (4, 0), (5, 1), (7, 1), (9, 2), (13, 2), (17, 3), (25, 3), (33, 4),
    (49, 4), (65, 5), (97, 5), (129, 6), (193, 6), (257, 7), (385, 7), (513, 8), (769, 8),
    (1025, 9), (1537, 9), (2049, 10), (3073, 10), (4097, 11), (6145, 11), (8193, 12), (12289, 12),
    (16385, 13), (24577, 13)]

/-- Reads the number of a symbol's row. A symbol without a row is a fault. -/
def readRow (rows : List (Nat × Nat)) (symbol : Nat) : BitReader Nat :=
  match rows[symbol]? with
  | some (least, bits) => do return least + (← readBits bits)
  | none => throw .corrupt

/-- Reads a token. -/
def readToken (literals distances : PrefixCode) : BitReader Token := do
  let symbol ← literals.decode
  if symbol < 256 then return .literal (UInt8.ofNat symbol)
  else if symbol = 256 then return .endOfBlock
  else
    let length ← readRow lengthRows (symbol - 257)
    let far ← distances.decode
    let distance ← readRow distanceRows far
    return .copy length distance

/-! ### Codes -/

/-- The lengths of the fixed code for literals and lengths. -/
def fixedLiteralLengths : List Nat :=
  List.replicate 144 8 ++ List.replicate 112 9 ++ List.replicate 24 7 ++ List.replicate 8 8

/-- The lengths of the fixed code for distances. -/
def fixedDistanceLengths : List Nat := List.replicate 32 5

/-- The order in which a block gives the lengths of the code in which the other lengths are. -/
def lengthOrder : List Nat := [16, 17, 18, 0, 8, 7, 9, 6, 10, 5, 11, 4, 12, 3, 13, 2, 14, 1, 15]

/-- Reads numbers of three bits each. -/
def readTriples : Nat → BitReader (List Nat)
  | 0 => pure []
  | count + 1 => do
    let first ← readBits 3
    let others ← readTriples count
    return first :: others

/-- Reads a run of equal lengths: the length and how often it stands there. The symbols from sixteen
on repeat the length in front or stand for zeros. -/
def readRun (code : PrefixCode) (previous? : Option Nat) : BitReader (Nat × Nat) := do
  let symbol ← code.decode
  if symbol < 16 then return (symbol, 1)
  else if symbol = 16 then
    match previous? with
    | none => throw .corrupt
    | some previous => return (previous, 3 + (← readBits 2))
  else if symbol = 17 then return (0, 3 + (← readBits 3))
  else return (0, 11 + (← readBits 7))

/-- Reads so many lengths, behind those already read, which come last first. -/
def readLengths (code : PrefixCode) (missing : Nat) (lengths : List Nat) : BitReader (List Nat) :=
  if missing = 0 then return lengths.reverse
  else do
    let (length, count) ← readRun code lengths.head?
    if _ : 0 < count ∧ count ≤ missing then
      readLengths code (missing - count) (List.replicate count length ++ lengths)
    else throw .corrupt
termination_by missing

/-- Reads the two codes in front of a block. -/
def readCodes : BitReader (PrefixCode × PrefixCode) := do
  let literalCount := 257 + (← readBits 5)
  let distanceCount := 1 + (← readBits 5)
  let lengthCount := 4 + (← readBits 4)
  if 286 < literalCount ∨ 30 < distanceCount then throw .corrupt
  else
    let triples ← readTriples lengthCount
    let given := lengthOrder.zip triples
    let code ← PrefixCode.complete? ((List.range 19).map fun symbol ↦ (given.lookup symbol).getD 0)
    let lengths ← readLengths code (literalCount + distanceCount) []
    let distances ← PrefixCode.ofLengths? (lengths.drop literalCount)
    let literals ← PrefixCode.ofLengths? (lengths.take literalCount)
    return (literals, distances)

/-! ### Blocks -/

/-- Where in a stream the next bit lies. -/
inductive Place where
  /-- In front of a block. -/
  | block
  /-- Inside a block of tokens. -/
  | token (literals distances : PrefixCode) (isLast : Bool)

/-- Where a stream goes on behind a block. -/
def behind (isLast : Bool) : Option Place := if isLast then none else some .block

/-- Repeats so many bytes from a distance back. -/
def copyBack (distance : Nat) : Nat → Array UInt8 → Array UInt8
  | 0, output => output
  | count + 1, output =>
    let byte := if distance ≤ output.size then output.getD (output.size - distance) 0 else 0
    copyBack distance count (output.push byte)

/-- Reads a block that holds its bytes as they are. -/
def readStored (isLast : Bool) (output : Array UInt8) :
    BitReader (Option Place × Array UInt8) := do
  let length ← readBytes 2
  let complement ← readBytes 2
  if littleEndian length + littleEndian complement = 0xFFFF then
    let bytes ← readBytes (littleEndian length)
    return (behind isLast, output.appendList bytes)
  else throw .corrupt

/-- Reads the front of a block, or all of a block without tokens. -/
def readBlock (output : Array UInt8) : BitReader (Option Place × Array UInt8) := do
  let isLast ← readBit
  let form ← readBits 2
  if form = 0 then readStored isLast output
  else if form = 1 then
    let literals ← PrefixCode.ofLengths? fixedLiteralLengths
    let distances ← PrefixCode.ofLengths? fixedDistanceLengths
    return (some (.token literals distances isLast), output)
  else if form = 2 then
    let (literals, distances) ← readCodes
    return (some (.token literals distances isLast), output)
  else throw .corrupt

/-- Reads from a place on to the next, and answers that place, if there is one, and the output. -/
def readStep (place : Place) (output : Array UInt8) : BitReader (Option Place × Array UInt8) :=
  match place with
  | .block => readBlock output
  | .token literals distances isLast => do
    match ← readToken literals distances with
    | .literal byte => return (some (.token literals distances isLast), output.push byte)
    | .endOfBlock => return (behind isLast, output)
    | .copy length distance =>
      return (some (.token literals distances isLast), copyBack distance length output)

/-! ### Each step takes bits -/

theorem shrinks_readRow (rows : List (Nat × Nat)) (symbol : Nat) :
    Shrinks 0 (readRow rows symbol) := by
  unfold readRow
  split
  · exact (Shrinks.readBits _).bind_left fun _ ↦ .pure _
  · exact .throw _ _

theorem shrinks_readToken (literals distances : PrefixCode) :
    Shrinks 1 (readToken literals distances) := by
  refine literals.shrinks_decode.bind_left fun symbol ↦ ?_
  split
  · exact .pure _
  · split
    · exact .pure _
    · exact (shrinks_readRow _ _).bind_left fun _ ↦
        (distances.shrinks_decode.weaken (Nat.zero_le _)).bind_left fun _ ↦
          (shrinks_readRow _ _).bind_left fun _ ↦ .pure _

theorem shrinks_readTriples (count : Nat) : Shrinks 0 (readTriples count) := by
  induction count with
  | zero => exact .pure _
  | succ count ih => exact (Shrinks.readBits 3).bind_left fun _ ↦ ih.bind_left fun _ ↦ .pure _

theorem shrinks_readRun (code : PrefixCode) (previous? : Option Nat) :
    Shrinks 0 (readRun code previous?) := by
  refine (code.shrinks_decode.weaken (Nat.zero_le _)).bind_left fun symbol ↦ ?_
  split
  · exact .pure _
  · split
    · split
      · exact .throw _ _
      · exact (Shrinks.readBits 2).bind_left fun _ ↦ .pure _
    · split
      · exact (Shrinks.readBits 3).bind_left fun _ ↦ .pure _
      · exact (Shrinks.readBits 7).bind_left fun _ ↦ .pure _

theorem shrinks_readLengths (code : PrefixCode) (missing : Nat) (lengths : List Nat) :
    Shrinks 0 (readLengths code missing lengths) := by
  fun_induction readLengths code missing lengths with
  | case1 lengths => exact .pure _
  | case2 missing lengths hmissing ih =>
    refine (shrinks_readRun code _).bind_left fun (length, count) ↦ ?_
    dsimp only
    split
    · rename_i hcount
      exact ih length count hcount
    · exact .throw _ _

theorem shrinks_lift {α : Type} (result : Except Fault α) :
    Shrinks 0 (liftM result : BitReader α) := by
  intro stream value rest h
  cases result with
  | error fault => cases h
  | ok found =>
    have hsame : Except.ok (found, stream) = Except.ok (value, rest) := h
    obtain ⟨-, rfl⟩ : found = value ∧ stream = rest := by simpa using hsame
    omega

theorem shrinks_readCodes : Shrinks 0 readCodes := by
  refine (Shrinks.readBits 5).bind_left fun _ ↦ (Shrinks.readBits 5).bind_left fun _ ↦
    (Shrinks.readBits 4).bind_left fun _ ↦ ?_
  dsimp only
  split
  · exact .throw _ _
  · exact (shrinks_readTriples _).bind_left fun _ ↦ (shrinks_lift _).bind_left fun _ ↦
      (shrinks_readLengths _ _ _).bind_left fun _ ↦ (shrinks_lift _).bind_left fun _ ↦
        (shrinks_lift _).bind_left fun _ ↦ .pure _

theorem shrinks_readStored (isLast : Bool) (output : Array UInt8) :
    Shrinks 0 (readStored isLast output) := by
  refine (Shrinks.readBytes 2).bind_left fun _ ↦ (Shrinks.readBytes 2).bind_left fun _ ↦ ?_
  split
  · exact (Shrinks.readBytes _).bind_left fun _ ↦ .pure _
  · exact .throw _ _

theorem shrinks_readBlock (output : Array UInt8) : Shrinks 1 (readBlock output) := by
  refine Shrinks.readBit.bind_left fun isLast ↦ (Shrinks.readBits 2).bind_left fun form ↦ ?_
  split
  · exact shrinks_readStored _ _
  · split
    · exact (shrinks_lift _).bind_left fun _ ↦ (shrinks_lift _).bind_left fun _ ↦ .pure _
    · split
      · exact shrinks_readCodes.bind_left fun _ ↦ .pure _
      · exact .throw _ _

theorem shrinks_readStep (place : Place) (output : Array UInt8) :
    Shrinks 1 (readStep place output) := by
  cases place with
  | block => exact shrinks_readBlock output
  | token literals distances isLast =>
    refine (shrinks_readToken literals distances).bind_left fun token ↦ ?_
    cases token <;> exact .pure _

/-! ### Streams -/

/-- Decompresses from a place on, behind the output so far. -/
def inflateFrom (place : Place) (output : Array UInt8) (stream : BitStream) :
    Except Fault (Array UInt8) :=
  match _h : readStep place output stream with
  | .error fault => .error fault
  | .ok ((none, output), _) => .ok output
  | .ok ((some next, output), rest) => inflateFrom next output rest
termination_by stream.remaining
decreasing_by
  have := shrinks_readStep place _ stream _ _ ‹_›
  omega

/-- Decompresses a stream. -/
def inflate (bytes : List UInt8) : Except Fault (List UInt8) :=
  (inflateFrom .block #[] ⟨[], bytes⟩).map Array.toList

end MonitorAudit.Deflate
