import MonitorAudit.Deflate.BitStream

/-!
# Prefix codes

A `PrefixCode` assigns bit strings to symbols so that none is the start of another. It is given by
the length of each symbol's bit string: shorter strings come first, and among strings of one length
the smaller symbol. Lengths are refused where they ask for more bit strings than there are, and
where they leave some unused (`complete?`); a code without symbols or with a single one of one bit
may leave some (`ofLengths?`).
-/

set_option autoImplicit false

namespace MonitorAudit.Deflate

/-- The symbols by what is left of their bit strings. -/
inductive PrefixTree where
  | empty
  | leaf (symbol : Nat)
  | node (zero one : PrefixTree)

/-- The symbols by their bit strings, none of which is empty. -/
structure PrefixCode where
  zero : PrefixTree
  one : PrefixTree

namespace PrefixTree

/-- Adds a symbol with its bit string. -/
def insert (symbol : Nat) : List Bool → PrefixTree → PrefixTree
  | [], _ => leaf symbol
  | false :: bits, node zero one => node (insert symbol bits zero) one
  | true :: bits, node zero one => node zero (insert symbol bits one)
  | false :: bits, _ => node (insert symbol bits empty) empty
  | true :: bits, _ => node empty (insert symbol bits empty)

/-- Reads the rest of a bit string. Bits that stand for no symbol are a fault. -/
def decode : PrefixTree → BitReader Nat
  | empty => throw .corrupt
  | leaf symbol => pure symbol
  | node zero one => do
    let bit ← readBit
    if bit then one.decode else zero.decode

theorem shrinks_decode (tree : PrefixTree) : Shrinks 0 tree.decode := by
  induction tree with
  | empty => exact .throw _ _
  | leaf symbol => exact .pure _
  | node zero one hzero hone =>
    refine (Shrinks.readBit.weaken (Nat.zero_le _)).bind_left fun bit ↦ ?_
    split
    · exact hone
    · exact hzero

end PrefixTree

namespace PrefixCode

/-- The greatest length of a bit string. -/
def maxLength : Nat := 15

/-- Reads the bit string of a symbol. -/
def decode (code : PrefixCode) : BitReader Nat := do
  let bit ← readBit
  if bit then code.one.decode else code.zero.decode

theorem shrinks_decode (code : PrefixCode) : Shrinks 1 code.decode := by
  refine Shrinks.readBit.bind_left fun bit ↦ ?_
  split <;> exact PrefixTree.shrinks_decode _

/-- The symbols that have bit strings, with the lengths of these: shorter ones first. -/
def orderedSymbols (lengths : List Nat) : List (Nat × Nat) :=
  (List.range maxLength).flatMap fun shorter ↦
    lengths.zipIdx.filterMap fun (length, symbol) ↦
      if length = shorter + 1 then some (length, symbol) else none

/-- The bits of a number in so many places, the most significant one first. -/
def bitString (places value : Nat) : List Bool :=
  (List.range places).map fun place ↦ value.testBit (places - 1 - place)

/-- The tree of symbols in order, each of which takes the next free bit string of its length. -/
def treeOf (symbols : List (Nat × Nat)) : PrefixTree :=
  (symbols.foldl (fun (tree, next, last) (length, symbol) ↦
    let value := next <<< (length - last)
    (tree.insert symbol (bitString length value), value + 1, length))
    (PrefixTree.empty, 0, 0)).1

/-- The share of all bit strings that the lengths ask for, in units of the longest ones. -/
def weight (symbols : List (Nat × Nat)) : Nat :=
  symbols.foldl (fun total (length, _) ↦ total + 1 <<< (maxLength - length)) 0

/-- The code of a tree. -/
def ofTree : PrefixTree → PrefixCode
  | .node zero one => ⟨zero, one⟩
  | _ => ⟨.empty, .empty⟩

/-- The code whose bit strings have the lengths given, zero standing for none, and leave no bit
string unused. -/
def complete? (lengths : List Nat) : Except Fault PrefixCode :=
  let symbols := orderedSymbols lengths
  if weight symbols = 1 <<< maxLength then .ok (ofTree (treeOf symbols)) else .error .corrupt

/-- The code whose bit strings have the lengths given, zero standing for none. They must use all bit
strings, unless there is no symbol or a single one, whose bit string is one bit long. -/
def ofLengths? (lengths : List Nat) : Except Fault PrefixCode :=
  match orderedSymbols lengths with
  | [] => .ok ⟨.empty, .empty⟩
  | [(1, symbol)] => .ok ⟨.leaf symbol, .empty⟩
  | _ => complete? lengths

end PrefixCode

end MonitorAudit.Deflate
