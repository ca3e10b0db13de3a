import Mathlib.Data.Rat.Defs

/-!
# Standard JSON

`JsonValue` is what a text of the format denotes, and the relations of this module say which texts
denote what, as the standard of the format has it: all of its escapes, pairs of surrogates among
them, numbers with fractions and exponents, and blanks between the parts.

`ValueShape inner` says which characters are a value, given which are the values inside it, and
`ValueText depth` ties the knot for values that nest at most so many levels deep.
`JsonValue.Denotes` is about whole texts, with blanks around the value. A text in which an object
has two members of one name, and one with half a pair of surrogates, denote nothing here: the
standard leaves open what a reader makes of them.
-/

set_option autoImplicit false

namespace MonitorAudit

/-- What a text of the format denotes. -/
inductive JsonValue where
  | null
  | bool (value : Bool)
  | number (value : Rat)
  | string (text : String)
  | array (items : List JsonValue)
  | object (members : List (String × JsonValue))

namespace JsonSyntax

/-! ### Blanks and the parts between them -/

/-- The characters that may stand between the parts of a text. -/
def isBlank (c : Char) : Bool := [' ', '\t', '\n', '\r'].contains c

/-- Nothing but blanks. -/
def Blanks (text : List Char) : Prop := ∀ c ∈ text, isBlank c = true

variable {α : Type}

/-- Which characters are a part with blanks around it. -/
inductive Padded (part : List Char → α → Prop) : List Char → α → Prop
  | intro {before text after : List Char} {value : α} (blanks : Blanks before)
      (behind : part text value) (blanksToo : Blanks after) :
      Padded part (before ++ (text ++ after)) value

/-- Which characters are parts with a comma between any two of them, of which there is one at
least. -/
inductive Separated (part : List Char → α → Prop) : List Char → List α → Prop
  | one {text : List Char} {value : α} (behind : part text value) : Separated part text [value]
  | more {text others : List Char} {value : α} {values : List α} (behind : part text value)
      (rest : Separated part others values) :
      Separated part (text ++ ',' :: others) (value :: values)

/-! ### Texts in quotes -/

/-- The value of a hexadecimal digit. -/
def hexDigit? (c : Char) : Option Nat :=
  if '0' ≤ c ∧ c ≤ '9' then some (c.toNat - '0'.toNat)
  else if 'a' ≤ c ∧ c ≤ 'f' then some (c.toNat - 'a'.toNat + 10)
  else if 'A' ≤ c ∧ c ≤ 'F' then some (c.toNat - 'A'.toNat + 10)
  else none

/-- The letters that stand behind a backslash for a character. -/
def shortEscapes : List (Char × Char) :=
  [('"', '"'), ('\\', '\\'), ('/', '/'), ('b', '\x08'), ('f', '\x0c'), ('n', '\n'), ('r', '\r'),
    ('t', '\t')]

/-- Which four digits are a unit of sixteen bits. -/
inductive HexUnit : List Char → Nat → Prop
  | intro {a b c d : Char} {first second third fourth : Nat} (ha : hexDigit? a = some first)
      (hb : hexDigit? b = some second) (hc : hexDigit? c = some third)
      (hd : hexDigit? d = some fourth) :
      HexUnit [a, b, c, d] (((first * 16 + second) * 16 + third) * 16 + fourth)

/-- Which characters stand behind a backslash for a character: a letter, the number of the character
in four digits, or for a character beyond these the numbers of a pair of surrogates. -/
inductive Escape : List Char → Char → Prop
  | letter {letter c : Char} (short : (letter, c) ∈ shortEscapes) : Escape [letter] c
  | unit {digits : List Char} {c : Char} (unit : HexUnit digits c.toNat) :
    Escape ('u' :: digits) c
  | pair {high low : List Char} {first second : Nat} {c : Char} (highUnit : HexUnit high first)
      (lowUnit : HexUnit low second) (isHigh : 0xD800 ≤ first ∧ first < 0xDC00)
      (isLow : 0xDC00 ≤ second ∧ second < 0xE000)
      (number : c.toNat = 0x10000 + (first - 0xD800) * 0x400 + (second - 0xDC00)) :
      Escape ('u' :: (high ++ '\\' :: 'u' :: low)) c

/-- Which characters stand between quotes for which characters. -/
inductive Characters : List Char → List Char → Prop
  | nil : Characters [] []
  | plain {c : Char} {text chars : List Char} (not_quote : c ≠ '"') (not_backslash : c ≠ '\\')
      (no_control : 0x20 ≤ c.toNat) (behind : Characters text chars) :
      Characters (c :: text) (c :: chars)
  | escape {c : Char} {escaped text chars : List Char} (escape : Escape escaped c)
      (behind : Characters text chars) : Characters ('\\' :: (escaped ++ text)) (c :: chars)

/-- Which characters are a text in quotes. -/
inductive Quoted : List Char → String → Prop
  | intro {text chars : List Char} (behind : Characters text chars) :
    Quoted ('"' :: (text ++ ['"'])) (String.ofList chars)

/-! ### Numbers -/

/-- At least one digit, and nothing else. -/
structure Digits (text : List Char) : Prop where
  ne_nil : text ≠ []
  isDigit : ∀ c ∈ text, c.isDigit = true

/-- The number that digits are in base ten. -/
def decimal (digits : List Char) : Nat := Nat.ofDigitChars 10 digits 0

/-- The digits in front of the point. Only the number zero begins with a zero. -/
inductive Whole : List Char → Prop
  | zero : Whole ['0']
  | positive {c : Char} {text : List Char} (digits : Digits (c :: text)) (not_zero : c ≠ '0') :
    Whole (c :: text)

/-- The digits behind the point, with the point, if there are any. -/
inductive Fraction : List Char → List Char → Prop
  | absent : Fraction [] []
  | present {digits : List Char} (behind : Digits digits) : Fraction ('.' :: digits) digits

/-- The power of ten, if there is one. -/
inductive Exponent : List Char → Int → Prop
  | absent : Exponent [] 0
  | unsigned {c : Char} {digits : List Char} (mark : c = 'e' ∨ c = 'E') (behind : Digits digits) :
    Exponent (c :: digits) (decimal digits)
  | plus {c : Char} {digits : List Char} (mark : c = 'e' ∨ c = 'E') (behind : Digits digits) :
    Exponent (c :: '+' :: digits) (decimal digits)
  | minus {c : Char} {digits : List Char} (mark : c = 'e' ∨ c = 'E') (behind : Digits digits) :
    Exponent (c :: '-' :: digits) (-decimal digits)

/-- The number of the digits in front of the point and behind it and of a power of ten. -/
def scaled (whole fraction : List Char) (exponent : Int) : Rat :=
  decimal (whole ++ fraction) * 10 ^ (exponent - fraction.length)

/-- Which characters are a number without a sign. -/
inductive Unsigned : List Char → Rat → Prop
  | intro {whole fractionText fraction exponentText : List Char} {exponent : Int}
      (isWhole : Whole whole) (isFraction : Fraction fractionText fraction)
      (isExponent : Exponent exponentText exponent) :
      Unsigned (whole ++ (fractionText ++ exponentText)) (scaled whole fraction exponent)

/-- Which characters are a number. -/
inductive Numeral : List Char → Rat → Prop
  | unsigned {text : List Char} {value : Rat} (behind : Unsigned text value) : Numeral text value
  | minus {text : List Char} {value : Rat} (behind : Unsigned text value) :
    Numeral ('-' :: text) (-value)

/-! ### Values -/

/-- Which characters are a member of an object, given which are values. -/
inductive MemberShape (inner : List Char → JsonValue → Prop) :
    List Char → String × JsonValue → Prop
  | intro {nameText valueText : List Char} {name : String} {value : JsonValue}
      (named : Padded Quoted nameText name) (behind : Padded inner valueText value) :
      MemberShape inner (nameText ++ ':' :: valueText) (name, value)

/-- Which characters are a value, given which are the values inside it. -/
inductive ValueShape (inner : List Char → JsonValue → Prop) : List Char → JsonValue → Prop
  | null : ValueShape inner ['n', 'u', 'l', 'l'] .null
  | true : ValueShape inner ['t', 'r', 'u', 'e'] (.bool true)
  | false : ValueShape inner ['f', 'a', 'l', 's', 'e'] (.bool false)
  | number {text : List Char} {value : Rat} (numeral : Numeral text value) :
    ValueShape inner text (.number value)
  | string {text : List Char} {value : String} (quoted : Quoted text value) :
    ValueShape inner text (.string value)
  | emptyArray {blanks : List Char} (isBlank : Blanks blanks) :
    ValueShape inner ('[' :: (blanks ++ [']'])) (.array [])
  | array {text : List Char} {items : List JsonValue}
      (separated : Separated (Padded inner) text items) :
      ValueShape inner ('[' :: (text ++ [']'])) (.array items)
  | emptyObject {blanks : List Char} (isBlank : Blanks blanks) :
    ValueShape inner ('\x7b' :: (blanks ++ ['\x7d'])) (.object [])
  | object {text : List Char} {members : List (String × JsonValue)}
      (separated : Separated (MemberShape inner) text members)
      (named_once : (members.map Prod.fst).Nodup) :
      ValueShape inner ('\x7b' :: (text ++ ['\x7d'])) (.object members)

/-- Which characters are a value that nests at most so many levels deep. -/
def ValueText : Nat → List Char → JsonValue → Prop
  | 0 => fun _ _ ↦ False
  | depth + 1 => ValueShape (ValueText depth)

end JsonSyntax

/-- The text denotes the value. -/
def JsonValue.Denotes (text : String) (value : JsonValue) : Prop :=
  ∃ depth, JsonSyntax.Padded (JsonSyntax.ValueText depth) text.toList value

end MonitorAudit
