import MonitorAudit.Text.Hexadecimal
import MonitorAudit.Bytes.Decoder

/-!
# SHA-256

The 256-bit digest of a list of bytes. The bytes are padded to whole blocks of sixteen 32-bit words
(`pad`); each block is extended to sixty-four words (`schedule`) and mixed into a state of eight
words in as many rounds (`compress`). The digest is the last state.
-/

set_option autoImplicit false

namespace MonitorAudit.Sha256

/-- The word that each round adds. -/
def roundConstants : List UInt32 :=
  [0x428a2f98, 0x71374491, 0xb5c0fbcf, 0xe9b5dba5, 0x3956c25b, 0x59f111f1, 0x923f82a4, 0xab1c5ed5,
    0xd807aa98, 0x12835b01, 0x243185be, 0x550c7dc3, 0x72be5d74, 0x80deb1fe, 0x9bdc06a7, 0xc19bf174,
    0xe49b69c1, 0xefbe4786, 0x0fc19dc6, 0x240ca1cc, 0x2de92c6f, 0x4a7484aa, 0x5cb0a9dc, 0x76f988da,
    0x983e5152, 0xa831c66d, 0xb00327c8, 0xbf597fc7, 0xc6e00bf3, 0xd5a79147, 0x06ca6351, 0x14292967,
    0x27b70a85, 0x2e1b2138, 0x4d2c6dfc, 0x53380d13, 0x650a7354, 0x766a0abb, 0x81c2c92e, 0x92722c85,
    0xa2bfe8a1, 0xa81a664b, 0xc24b8b70, 0xc76c51a3, 0xd192e819, 0xd6990624, 0xf40e3585, 0x106aa070,
    0x19a4c116, 0x1e376c08, 0x2748774c, 0x34b0bcb5, 0x391c0cb3, 0x4ed8aa4a, 0x5b9cca4f, 0x682e6ff3,
    0x748f82ee, 0x78a5636f, 0x84c87814, 0x8cc70208, 0x90befffa, 0xa4506ceb, 0xbef9a3f7, 0xc67178f2]

/-- The eight words of the state. -/
structure State where
  a : UInt32
  b : UInt32
  c : UInt32
  d : UInt32
  e : UInt32
  f : UInt32
  g : UInt32
  h : UInt32
  deriving DecidableEq, Repr

namespace State

/-- The state in front of the first block. -/
def initial : State :=
  ⟨0x6a09e667, 0xbb67ae85, 0x3c6ef372, 0xa54ff53a,
    0x510e527f, 0x9b05688c, 0x1f83d9ab, 0x5be0cd19⟩

/-- The sum of two states, word by word. -/
def add (first second : State) : State :=
  ⟨first.a + second.a, first.b + second.b, first.c + second.c, first.d + second.d,
    first.e + second.e, first.f + second.f, first.g + second.g, first.h + second.h⟩

/-- The words of a state. -/
def words (state : State) : List UInt32 :=
  [state.a, state.b, state.c, state.d, state.e, state.f, state.g, state.h]

end State

/-! ### Padding -/

/-- The bytes of a number, the most significant one first. -/
def bytesOf (count value : Nat) : List UInt8 :=
  (List.range count).map fun index ↦ UInt8.ofNat (value >>> (8 * (count - 1 - index)))

/-- The bytes, a one bit, zeros, and the number of bits in eight bytes: whole blocks. -/
def pad (bytes : List UInt8) : List UInt8 :=
  let length := bytes.length
  bytes ++ 0x80 :: List.replicate ((119 - length % 64) % 64) 0 ++ bytesOf 8 (8 * length)

/-- The words of bytes, four at a time, behind those already taken, which come last first. -/
def wordsOnto : List UInt32 → List UInt8 → List UInt32
  | words, first :: second :: third :: fourth :: rest =>
    wordsOnto (UInt32.ofNat (bigEndian [first, second, third, fourth]) :: words) rest
  | words, _ => words.reverse

/-! ### Mixing -/

/-- The word turned right by a number of bits between one and thirty-one. -/
def rotateRight (word : UInt32) (bits : UInt32) : UInt32 :=
  word >>> bits ||| word <<< (32 - bits)

/-- The next word of a schedule, from the sixteen words in front of it, the last one first. -/
def nextWord (window : List UInt32) : UInt32 :=
  let back (distance : Nat) : UInt32 := window.getD (distance - 1) 0
  let far := back 15
  let near := back 2
  let mixFar := rotateRight far 7 ^^^ rotateRight far 18 ^^^ far >>> 3
  let mixNear := rotateRight near 17 ^^^ rotateRight near 19 ^^^ near >>> 10
  mixNear + back 7 + mixFar + back 16

/-- The words of a block, extended by `count` further words. -/
def schedule (count : Nat) (block : List UInt32) : List UInt32 :=
  ((List.range count).foldl (fun words _ ↦ nextWord words :: words) block.reverse).reverse

/-- One round. -/
def round (state : State) (constant word : UInt32) : State :=
  let mixHigh := rotateRight state.e 6 ^^^ rotateRight state.e 11 ^^^ rotateRight state.e 25
  let choice := state.e &&& state.f ^^^ ~~~state.e &&& state.g
  let first := state.h + mixHigh + choice + constant + word
  let mixLow := rotateRight state.a 2 ^^^ rotateRight state.a 13 ^^^ rotateRight state.a 22
  let majority := state.a &&& state.b ^^^ state.a &&& state.c ^^^ state.b &&& state.c
  ⟨first + (mixLow + majority), state.a, state.b, state.c, state.d + first, state.e, state.f,
    state.g⟩

/-- The state after a block. -/
def compress (state : State) (block : List UInt32) : State :=
  let rounds := roundConstants.zip (schedule 48 block)
  state.add (rounds.foldl (fun state (constant, word) ↦ round state constant word) state)

/-- The state after all blocks of sixteen words. -/
def absorb (state : State) (words : List UInt32) : State :=
  if words.isEmpty then state
  else absorb (compress state (words.take 16)) (words.drop 16)
termination_by words.length
decreasing_by
  simp_all only [List.isEmpty_iff, List.length_drop]
  have := List.length_pos_iff.mpr ‹words ≠ []›
  omega

/-- The digest of bytes, in thirty-two bytes. -/
def digest (bytes : List UInt8) : List UInt8 :=
  (absorb .initial (wordsOnto [] (pad bytes))).words.flatMap fun word ↦ bytesOf 4 word.toNat

/-- The digest of bytes in hexadecimal digits. -/
def hexDigest (bytes : List UInt8) : String := Hexadecimal.ofBytes (digest bytes)

end MonitorAudit.Sha256
