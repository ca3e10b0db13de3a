import MonitorAudit.Proofs.Report.JsonSyntax
import Mathlib.Data.List.TakeWhile

/-!
# A reader of standard JSON

`JsonValue.read? limit` reads texts whose values nest at most `limit` levels deep. It reads every
text of the standard syntax as the value that the text denotes (`JsonValue.read?_of_denotes`), which
is what the standard asks of a reader; where a text denotes nothing it may answer anything. Since it
answers one value, a text denotes no more than one (`JsonValue.Denotes.unique`).

Parts are read from the front of a list of characters. `Accepts reader part follows` says that the
reader reads such parts where what follows them is as described: a number has to be followed by
something that does not prolong it, whereas anything may follow a closing quote.
-/

set_option autoImplicit false

namespace MonitorAudit

namespace JsonSyntax

variable {α : Type}

/-! ### The reader -/

/-- Passes over blanks. -/
def skip (text : List Char) : List Char := text.dropWhile isBlank

/-- Reads a part with blanks around it. -/
def readPadded (reader : List Char → Option (α × List Char)) (text : List Char) :
    Option (α × List Char) :=
  match reader (skip text) with
  | some (value, rest) => some (value, skip rest)
  | none => none

/-- Reads parts with commas between them, up to the closing mark. -/
def readSeparated (reader : List Char → Option (α × List Char)) (close : Char) :
    Nat → List Char → Option (List α × List Char)
  | 0, _ => none
  | fuel + 1, text =>
    match reader text with
    | some (value, c :: rest) =>
      if c = ',' then
        match readSeparated reader close fuel rest with
        | some (values, rest) => some (value :: values, rest)
        | none => none
      else if c = close then some ([value], rest)
      else none
    | _ => none

/-- Reads parts with commas between them, if there are any, up to the closing mark. -/
def readList (reader : List Char → Option (α × List Char)) (close : Char) (text : List Char) :
    Option (List α × List Char) :=
  match skip text with
  | [] => none
  | c :: rest =>
    if c = close then some ([], rest) else readSeparated reader close (text.length + 1) text

/-- Reads a unit of sixteen bits from four digits. -/
def readUnit : List Char → Option (Nat × List Char)
  | a :: b :: c :: d :: rest => do
    let first ← hexDigit? a
    let second ← hexDigit? b
    let third ← hexDigit? c
    let fourth ← hexDigit? d
    return (((first * 16 + second) * 16 + third) * 16 + fourth, rest)
  | _ => none

/-- Reads a character behind a backslash and `u`. -/
def readNumbered (text : List Char) : Option (Char × List Char) := do
  let (first, rest) ← readUnit text
  if 0xD800 ≤ first ∧ first < 0xDC00 then
    match rest with
    | '\\' :: 'u' :: rest =>
      let (second, rest) ← readUnit rest
      return (Char.ofNat (0x10000 + (first - 0xD800) * 0x400 + (second - 0xDC00)), rest)
    | _ => none
  else return (Char.ofNat first, rest)

/-- Reads a character behind a backslash. -/
def readEscape : List Char → Option (Char × List Char)
  | [] => none
  | letter :: rest =>
    if letter = 'u' then readNumbered rest
    else
      match shortEscapes.lookup letter with
      | some c => some (c, rest)
      | none => none

/-- Reads characters up to the closing quote. -/
def readCharacters : Nat → List Char → Option (List Char × List Char)
  | 0, _ => none
  | _, [] => none
  | fuel + 1, c :: rest =>
    if c = '"' then some ([], rest)
    else if c = '\\' then do
      let (c, rest) ← readEscape rest
      let (chars, rest) ← readCharacters fuel rest
      return (c :: chars, rest)
    else if c.toNat < 0x20 then none
    else do
      let (chars, rest) ← readCharacters fuel rest
      return (c :: chars, rest)

/-- Reads a text in quotes. -/
def readQuoted : List Char → Option (String × List Char)
  | [] => none
  | c :: rest =>
    if c = '"' then do
      let (chars, rest) ← readCharacters (rest.length + 1) rest
      return (String.ofList chars, rest)
    else none

/-- Reads at least one digit. -/
def readDigits (text : List Char) : Option (List Char × List Char) :=
  match text.takeWhile Char.isDigit with
  | [] => none
  | digits => some (digits, text.dropWhile Char.isDigit)

/-- Reads the digits behind a point, if there is one. -/
def readFraction : List Char → Option (List Char × List Char)
  | [] => some ([], [])
  | c :: rest => if c = '.' then readDigits rest else some ([], c :: rest)

/-- Reads the power of ten, if there is one. -/
def readExponent : List Char → Option (Int × List Char)
  | [] => some (0, [])
  | c :: rest =>
    if c = 'e' ∨ c = 'E' then
      match rest with
      | [] => none
      | sign :: digits =>
        if sign = '-' then (readDigits digits).map fun (digits, rest) ↦ (-decimal digits, rest)
        else if sign = '+' then (readDigits digits).map fun (digits, rest) ↦ (decimal digits, rest)
        else (readDigits rest).map fun (digits, rest) ↦ (decimal digits, rest)
    else some (0, c :: rest)

/-- Reads a number without a sign. -/
def readUnsigned (text : List Char) : Option (Rat × List Char) := do
  let (whole, rest) ← readDigits text
  let (fraction, rest) ← readFraction rest
  let (exponent, rest) ← readExponent rest
  return (scaled whole fraction exponent, rest)

/-- Reads a number. -/
def readNumeral : List Char → Option (Rat × List Char)
  | [] => none
  | c :: rest =>
    if c = '-' then (readUnsigned rest).map fun (value, rest) ↦ (-value, rest)
    else readUnsigned (c :: rest)

/-- Reads the rest of a word for a value. -/
def readWord (word : List Char) (value : JsonValue) (text : List Char) :
    Option (JsonValue × List Char) :=
  if word.isPrefixOf text then some (value, text.drop word.length) else none

/-- Reads a member of an object. -/
def readMember (reader : List Char → Option (JsonValue × List Char)) (text : List Char) :
    Option ((String × JsonValue) × List Char) :=
  match readPadded readQuoted text with
  | some (name, c :: rest) =>
    if c = ':' then
      match readPadded reader rest with
      | some (value, rest) => some ((name, value), rest)
      | none => none
    else none
  | _ => none

/-- Reads a value that nests at most so many levels deep. -/
def readValue : Nat → List Char → Option (JsonValue × List Char)
  | 0, _ => none
  | _, [] => none
  | depth + 1, c :: rest =>
    if c = 'n' then readWord ['u', 'l', 'l'] .null rest
    else if c = 't' then readWord ['r', 'u', 'e'] (.bool true) rest
    else if c = 'f' then readWord ['a', 'l', 's', 'e'] (.bool false) rest
    else if c = '"' then
      (readQuoted (c :: rest)).map fun (text, rest) ↦ (.string text, rest)
    else if c = '[' then
      (readList (readPadded (readValue depth)) ']' rest).map fun (items, rest) ↦
        (.array items, rest)
    else if c = '\x7b' then
      (readList (readMember (readValue depth)) '\x7d' rest).map fun (members, rest) ↦
        (.object members, rest)
    else (readNumeral (c :: rest)).map fun (value, rest) ↦ (.number value, rest)

/-! ### What follows a part -/

/-- The reader reads the parts, wherever they are followed as described. -/
def Accepts (reader : List Char → Option (α × List Char)) (part : List Char → α → Prop)
    (follows : List Char → Prop) : Prop :=
  ∀ text value rest, part text value → follows rest → reader (text ++ rest) = some (value, rest)

/-- A mark between parts, or the end of the text. -/
def AtMark (text : List Char) : Prop := ∀ c ∈ text.head?, c ∈ [',', ':', ']', '\x7d']

/-- A blank, a mark between parts, or the end of the text. -/
def AtBreak (text : List Char) : Prop :=
  ∀ c ∈ text.head?, isBlank c = true ∨ c ∈ [',', ':', ']', '\x7d']

theorem isBlank_iff {c : Char} : isBlank c = true ↔ c = ' ' ∨ c = '\t' ∨ c = '\n' ∨ c = '\r' := by
  simp only [isBlank, List.contains_iff_mem, List.mem_cons, List.not_mem_nil, or_false]

theorem not_isBlank_of_mark {c : Char} (h : c ∈ [',', ':', ']', '\x7d']) : isBlank c = false := by
  simp only [List.mem_cons, List.not_mem_nil, or_false] at h
  rcases h with rfl | rfl | rfl | rfl <;> rfl

theorem skip_of_blanks {blanks rest : List Char} (h : Blanks blanks) :
    skip (blanks ++ rest) = skip rest := by
  unfold skip
  rw [List.dropWhile_append_of_pos h]

theorem skip_of_atMark {rest : List Char} (h : AtMark rest) : skip rest = rest := by
  cases rest with
  | nil => rfl
  | cons c rest =>
    have hmark : c ∈ [',', ':', ']', '\x7d'] := h c rfl
    exact List.dropWhile_cons_of_neg (by simp [not_isBlank_of_mark hmark])

theorem atBreak_of_atMark {blanks rest : List Char} (hblanks : Blanks blanks) (h : AtMark rest) :
    AtBreak (blanks ++ rest) := by
  intro c hc
  cases blanks with
  | nil => exact .inr (h c hc)
  | cons blank blanks =>
    obtain rfl : blank = c := by simpa using hc
    exact .inl (hblanks blank (List.mem_cons_self ..))

/-! ### Texts in quotes -/

theorem accepts_readUnit : Accepts readUnit HexUnit fun _ ↦ True := by
  rintro text value rest ⟨ha, hb, hc, hd⟩ -
  simp [readUnit, ha, hb, hc, hd]

/-- The number of a character is not one of a surrogate. -/
theorem not_surrogate (c : Char) : ¬ (0xD800 ≤ c.toNat ∧ c.toNat < 0xDC00) := by
  have hvalid : c.toNat < 0xD800 ∨ 0xDFFF < c.toNat ∧ c.toNat < 0x110000 := c.valid
  omega

theorem accepts_readEscape : Accepts readEscape Escape fun _ ↦ True := by
  intro text c rest h _
  cases h with
  | letter short =>
    simp only [shortEscapes, List.mem_cons, Prod.mk.injEq, List.not_mem_nil, or_false] at short
    rcases short with ⟨rfl, rfl⟩ | ⟨rfl, rfl⟩ | ⟨rfl, rfl⟩ | ⟨rfl, rfl⟩ | ⟨rfl, rfl⟩ | ⟨rfl, rfl⟩ |
      ⟨rfl, rfl⟩ | ⟨rfl, rfl⟩
    all_goals rfl
  | unit unit =>
    have hunit := accepts_readUnit _ _ rest unit trivial
    show readNumbered (_ ++ rest) = _
    simp [readNumbered, hunit, not_surrogate]
  | @pair high low first second _ highUnit lowUnit isHigh isLow number =>
    have hhigh := accepts_readUnit _ _ ('\\' :: 'u' :: (low ++ rest)) highUnit trivial
    have hlow := accepts_readUnit _ _ rest lowUnit trivial
    have htext : 'u' :: (high ++ '\\' :: 'u' :: low) ++ rest =
        'u' :: (high ++ '\\' :: 'u' :: (low ++ rest)) := by simp
    rw [htext]
    show readNumbered _ = _
    simp [readNumbered, hhigh, isHigh, hlow, ← number]

theorem readCharacters_append {text chars : List Char} (h : Characters text chars)
    (rest : List Char) (fuel : Nat) (hfuel : text.length < fuel) :
    readCharacters fuel (text ++ '"' :: rest) = some (chars, rest) := by
  induction h generalizing fuel with
  | nil =>
    obtain ⟨fuel, rfl⟩ := Nat.exists_eq_succ_of_ne_zero (Nat.ne_zero_of_lt hfuel)
    rfl
  | plain not_quote not_backslash no_control _ ih =>
    obtain ⟨fuel, rfl⟩ := Nat.exists_eq_succ_of_ne_zero (Nat.ne_zero_of_lt hfuel)
    have hrest := ih fuel (Nat.lt_of_succ_lt_succ hfuel)
    simp [readCharacters, not_quote, not_backslash, Nat.not_lt.mpr no_control, hrest]
  | @escape c escaped text chars escape _ ih =>
    obtain ⟨fuel, rfl⟩ := Nat.exists_eq_succ_of_ne_zero (Nat.ne_zero_of_lt hfuel)
    have hescape := accepts_readEscape _ _ (text ++ '"' :: rest) escape trivial
    have hrest := ih fuel (by
      simp only [List.length_cons, List.length_append] at hfuel
      omega)
    simp [readCharacters, hescape, hrest]

theorem accepts_readQuoted : Accepts readQuoted Quoted fun _ ↦ True := by
  rintro _ _ rest ⟨behind⟩ -
  rename_i text chars
  have hbehind := readCharacters_append behind rest (text.length + (rest.length + 1) + 1) (by omega)
  simp [readQuoted, hbehind]

/-! ### Numbers -/

/-- The first character, if there is one, is not a digit. -/
def NoDigit (text : List Char) : Prop := ∀ c ∈ text.head?, c.isDigit = false

theorem readDigits_append {digits rest : List Char} (h : Digits digits) (hrest : NoDigit rest) :
    readDigits (digits ++ rest) = some (digits, rest) := by
  have htake : (digits ++ rest).takeWhile Char.isDigit = digits := by
    rw [List.takeWhile_append_of_pos h.isDigit]
    cases rest with
    | nil => simp
    | cons c rest => simp [hrest c rfl]
  have hdrop : (digits ++ rest).dropWhile Char.isDigit = rest := by
    rw [List.dropWhile_append_of_pos h.isDigit]
    cases rest with
    | nil => rfl
    | cons c rest => simp [hrest c rfl]
  unfold readDigits
  rw [htake, hdrop]
  cases digits with
  | nil => exact absurd rfl h.ne_nil
  | cons c digits => rfl

/-- What follows a number does not prolong it. -/
theorem no_number_of_atBreak {text : List Char} (h : AtBreak text) {c : Char}
    (hc : c ∈ text.head?) : c.isDigit = false ∧ c ≠ '.' ∧ c ≠ 'e' ∧ c ≠ 'E' := by
  rcases h c hc with hblank | hmark
  · rcases isBlank_iff.mp hblank with rfl | rfl | rfl | rfl
    all_goals decide
  · simp only [List.mem_cons, List.not_mem_nil, or_false] at hmark
    rcases hmark with rfl | rfl | rfl | rfl
    all_goals decide

theorem Exponent.head_append {text : List Char} {exponent : Int} (h : Exponent text exponent)
    {rest : List Char} (hrest : AtBreak rest) {c : Char} (hc : c ∈ (text ++ rest).head?) :
    c.isDigit = false ∧ c ≠ '.' := by
  cases h with
  | absent =>
    obtain ⟨hdigit, hpoint, -⟩ := no_number_of_atBreak hrest hc
    exact ⟨hdigit, hpoint⟩
  | unsigned mark _ | plus mark _ | minus mark _ =>
    obtain rfl := Option.some.inj hc
    rcases mark with rfl | rfl
    all_goals decide

theorem Fraction.noDigit_append {text digits : List Char} (h : Fraction text digits)
    {rest : List Char} (hrest : NoDigit rest) : NoDigit (text ++ rest) := by
  cases h with
  | absent => exact hrest
  | present _ =>
    intro c hc
    obtain rfl := Option.some.inj hc
    rfl

theorem Whole.digits {text : List Char} (h : Whole text) : Digits text := by
  cases h with
  | zero => exact ⟨by simp, by simp⟩
  | positive digits _ => exact digits

theorem readExponent_append {text : List Char} {exponent : Int} (h : Exponent text exponent)
    {rest : List Char} (hrest : AtBreak rest) :
    readExponent (text ++ rest) = some (exponent, rest) := by
  have hno : NoDigit rest := fun c hc ↦ (no_number_of_atBreak hrest hc).1
  cases h with
  | absent =>
    cases rest with
    | nil => rfl
    | cons c rest =>
      obtain ⟨-, -, he, hE⟩ := no_number_of_atBreak hrest (c := c) rfl
      simp [readExponent, he, hE]
  | @unsigned c digits mark behind =>
    have hdigits := readDigits_append behind hno
    cases digits with
    | nil => exact absurd rfl behind.ne_nil
    | cons d digits =>
      have hd := behind.isDigit d (List.mem_cons_self ..)
      have hminus : d ≠ '-' := by
        rintro rfl
        exact absurd hd (by decide)
      have hplus : d ≠ '+' := by
        rintro rfl
        exact absurd hd (by decide)
      simp only [List.cons_append] at hdigits
      simp [readExponent, mark, hminus, hplus, hdigits]
  | plus mark behind => simp [readExponent, mark, readDigits_append behind hno]
  | minus mark behind => simp [readExponent, mark, readDigits_append behind hno]

theorem accepts_readUnsigned : Accepts readUnsigned Unsigned AtBreak := by
  rintro _ _ rest ⟨isWhole, isFraction, isExponent⟩ hrest
  rename_i whole fractionText fraction exponentText exponent
  have hexponent := readExponent_append isExponent hrest
  have hbehind : NoDigit (exponentText ++ rest) := fun c hc ↦ (isExponent.head_append hrest hc).1
  have hfraction : readFraction (fractionText ++ (exponentText ++ rest)) =
      some (fraction, exponentText ++ rest) := by
    cases isFraction with
    | present digits => simp [readFraction, readDigits_append digits hbehind]
    | absent =>
      rw [List.nil_append]
      cases htext : exponentText ++ rest with
      | nil => rfl
      | cons c text =>
        have hpoint := (isExponent.head_append (c := c) hrest (by rw [htext]; rfl)).2
        simp [readFraction, hpoint]
  have hwhole := readDigits_append isWhole.digits (isFraction.noDigit_append hbehind)
  simp [readUnsigned, hwhole, hfraction, hexponent]

theorem Unsigned.exists_digit {text : List Char} {value : Rat} (h : Unsigned text value) :
    ∃ c behind, text = c :: behind ∧ c.isDigit = true := by
  obtain ⟨isWhole, -, -⟩ := h
  cases isWhole with
  | zero => exact ⟨'0', _, rfl, rfl⟩
  | positive digits _ => exact ⟨_, _, rfl, digits.isDigit _ (List.mem_cons_self ..)⟩

theorem accepts_readNumeral : Accepts readNumeral Numeral AtBreak := by
  intro text value rest h hrest
  cases h with
  | unsigned behind =>
    have hbehind := accepts_readUnsigned _ _ _ behind hrest
    obtain ⟨c, text, rfl, hc⟩ := behind.exists_digit
    have hminus : c ≠ '-' := by
      rintro rfl
      exact absurd hc (by decide)
    simp only [List.cons_append] at hbehind
    simp [readNumeral, hminus, hbehind]
  | minus behind =>
    have hbehind := accepts_readUnsigned _ _ _ behind hrest
    simp [readNumeral, hbehind]

/-! ### Lists -/

/-- Behind blanks the first character is neither a blank nor the end of a list. -/
def Opens (text : List Char) : Prop :=
  ∃ c behind, skip text = c :: behind ∧ isBlank c = false ∧ c ≠ ']' ∧ c ≠ '\x7d'

/-- A part begins with a character that is neither a blank nor the end of a list. -/
def Begins (part : List Char → α → Prop) : Prop :=
  ∀ text value, part text value →
    ∃ c behind, text = c :: behind ∧ isBlank c = false ∧ c ≠ ']' ∧ c ≠ '\x7d'

section Lists

variable {reader : List Char → Option (α × List Char)} {part : List Char → α → Prop}
  {text rest : List Char} {value : α} {values : List α} {close : Char}

theorem Begins.skip_append (h : Begins part) (behind : part text value) (rest : List Char) :
    skip (text ++ rest) = text ++ rest := by
  obtain ⟨c, tail, rfl, hblank, -⟩ := h text value behind
  exact List.dropWhile_cons_of_neg (by simp [hblank])

theorem Padded.opens (hpart : Begins part) (h : Padded part text value) (rest : List Char) :
    Opens (text ++ rest) := by
  obtain ⟨blanks, behind, -⟩ := h
  rename_i before after
  obtain ⟨c, tail, rfl, hc⟩ := hpart _ _ behind
  refine ⟨c, tail ++ (after ++ rest), ?_, hc⟩
  rw [List.append_assoc, skip_of_blanks blanks, List.append_assoc, hpart.skip_append behind]
  rfl

theorem accepts_readPadded (h : Accepts reader part AtBreak) (hpart : Begins part) :
    Accepts (readPadded reader) (Padded part) AtMark := by
  rintro _ value rest ⟨blanks, behind, blanksToo⟩ hrest
  have hread := h _ _ _ behind (atBreak_of_atMark blanksToo hrest)
  unfold readPadded
  rw [List.append_assoc, skip_of_blanks blanks, List.append_assoc, hpart.skip_append behind, hread]
  simp only
  rw [skip_of_blanks blanksToo, skip_of_atMark hrest]

theorem atMark_close (hclose : close = ']' ∨ close = '\x7d') (rest : List Char) :
    AtMark (close :: rest) := by
  intro c hc
  obtain rfl := Option.some.inj hc
  rcases hclose with rfl | rfl
  all_goals simp

theorem readSeparated_append (h : Accepts reader part AtMark)
    (hclose : close = ']' ∨ close = '\x7d') (separated : Separated part text values)
    (rest : List Char) (fuel : Nat) (hfuel : text.length < fuel) :
    readSeparated reader close fuel (text ++ close :: rest) = some (values, rest) := by
  have hmark := atMark_close hclose rest
  have hcomma : close ≠ ',' := by
    rcases hclose with rfl | rfl
    all_goals decide
  induction separated generalizing fuel with
  | one behind =>
    obtain ⟨fuel, rfl⟩ := Nat.exists_eq_succ_of_ne_zero (Nat.ne_zero_of_lt hfuel)
    simp [readSeparated, h _ _ _ behind hmark, hcomma]
  | @more text others value values behind _ ih =>
    obtain ⟨fuel, rfl⟩ := Nat.exists_eq_succ_of_ne_zero (Nat.ne_zero_of_lt hfuel)
    have hothers := ih fuel (by
      simp only [List.length_append, List.length_cons] at hfuel
      omega)
    have hvalue := h _ _ (',' :: (others ++ close :: rest)) behind (by simp [AtMark])
    simp [readSeparated, hvalue, hothers]

/-- A list is read up to its closing mark. -/
theorem readList_append (h : Accepts reader part AtMark)
    (hpart : ∀ text value rest, part text value → Opens (text ++ rest))
    (hclose : close = ']' ∨ close = '\x7d') (separated : Separated part text values)
    (rest : List Char) : readList reader close (text ++ close :: rest) = some (values, rest) := by
  have hopens : Opens (text ++ close :: rest) := by
    cases separated with
    | one behind => exact hpart _ _ _ behind
    | more behind _ =>
      rw [List.append_assoc]
      exact hpart _ _ _ behind
  obtain ⟨c, behind, hskip, -, hbracket, hbrace⟩ := hopens
  have hc : c ≠ close := by
    rcases hclose with rfl | rfl
    · exact hbracket
    · exact hbrace
  have hlength : text.length < (text ++ close :: rest).length + 1 := by
    rw [List.length_append]
    omega
  unfold readList
  rw [hskip]
  simp only [if_neg hc]
  exact readSeparated_append h hclose separated rest _ hlength

theorem readList_of_blanks (reader : List Char → Option (α × List Char)) {blanks : List Char}
    (h : Blanks blanks) (hclose : close = ']' ∨ close = '\x7d') (rest : List Char) :
    readList reader close (blanks ++ close :: rest) = some ([], rest) := by
  unfold readList
  rw [skip_of_blanks h, skip_of_atMark (atMark_close hclose rest)]
  simp

end Lists

/-! ### Values -/

section Values

variable {inner : List Char → JsonValue → Prop}
  {reader : List Char → Option (JsonValue × List Char)}

theorem begins_quoted : Begins Quoted := by
  rintro _ _ ⟨-⟩
  exact ⟨'"', _, rfl, by decide, by decide, by decide⟩

theorem MemberShape.opens {text : List Char} {member : String × JsonValue}
    (h : MemberShape inner text member) (rest : List Char) : Opens (text ++ rest) := by
  obtain ⟨named, -⟩ := h
  rw [List.append_assoc]
  exact named.opens begins_quoted _

theorem accepts_readMember (h : Accepts reader inner AtBreak) (hinner : Begins inner) :
    Accepts (readMember reader) (MemberShape inner) AtMark := by
  rintro _ _ rest ⟨named, behind⟩ hrest
  rename_i nameText valueText name value
  have hquoted : Accepts readQuoted Quoted AtBreak := fun text value rest hquoted _ ↦
    accepts_readQuoted text value rest hquoted trivial
  have hname := accepts_readPadded hquoted begins_quoted _ _ (':' :: (valueText ++ rest)) named
    (by simp [AtMark])
  have hvalue := accepts_readPadded h hinner _ _ rest behind hrest
  simp [readMember, hname, hvalue]

theorem begins_numeral : Begins Numeral := by
  intro text value h
  cases h with
  | minus behind => exact ⟨'-', _, rfl, by decide, by decide, by decide⟩
  | unsigned behind =>
    obtain ⟨c, tail, rfl, hc⟩ := behind.exists_digit
    refine ⟨c, tail, rfl, ?_, ?_, ?_⟩
    · cases hblank : isBlank c with
      | false => rfl
      | true =>
        rcases isBlank_iff.mp hblank with rfl | rfl | rfl | rfl
        all_goals exact absurd hc (by decide)
    all_goals
      rintro rfl
      exact absurd hc (by decide)

theorem begins_valueShape : Begins (ValueShape inner) := by
  intro text value h
  cases h with
  | number numeral => exact begins_numeral _ _ numeral
  | string quoted => exact begins_quoted _ _ quoted
  | _ => exact ⟨_, _, rfl, by decide, by decide, by decide⟩

theorem begins_valueText (depth : Nat) : Begins (ValueText depth) := by
  cases depth with
  | zero => exact fun _ _ h ↦ h.elim
  | succ depth => exact begins_valueShape

/-- A number is none of the other values. -/
theorem readValue_of_numeral {text : List Char} {value : Rat} {rest : List Char} {limit : Nat}
    (numeral : Numeral text value) (hrest : AtBreak rest) :
    readValue (limit + 1) (text ++ rest) = some (.number value, rest) := by
  have hread := accepts_readNumeral _ _ _ numeral hrest
  have hhead : ∃ c tail, text = c :: tail ∧ (c = '-' ∨ c.isDigit = true) := by
    cases numeral with
    | minus behind => exact ⟨'-', _, rfl, .inl rfl⟩
    | unsigned behind =>
      obtain ⟨c, tail, rfl, hc⟩ := behind.exists_digit
      exact ⟨c, tail, rfl, .inr hc⟩
  obtain ⟨c, tail, rfl, hc⟩ := hhead
  have hne (other : Char) (hminus : '-' ≠ other) (hdigit : other.isDigit = false) : c ≠ other := by
    rintro rfl
    rcases hc with hc | hc
    · exact hminus hc.symm
    · simp [hdigit] at hc
  rw [List.cons_append] at hread ⊢
  simp [readValue, hread, hne 'n' (by decide) rfl, hne 't' (by decide) rfl,
    hne 'f' (by decide) rfl, hne '"' (by decide) rfl, hne '[' (by decide) rfl,
    hne '\x7b' (by decide) rfl]

/-- Values are read that nest no deeper than the reader goes. -/
theorem accepts_readValue (depth limit : Nat) (h : depth ≤ limit) :
    Accepts (readValue limit) (ValueText depth) AtBreak := by
  induction depth generalizing limit with
  | zero => exact fun _ _ _ hnever _ ↦ hnever.elim
  | succ depth ih =>
    obtain ⟨limit, rfl⟩ := Nat.exists_eq_succ_of_ne_zero (Nat.ne_zero_of_lt h)
    have hinner := ih limit (Nat.le_of_succ_le_succ h)
    have hpadded := accepts_readPadded hinner (begins_valueText depth)
    have hmember := accepts_readMember hinner (begins_valueText depth)
    intro text value rest hvalue hrest
    cases hvalue with
    | null | true | false => simp [readValue, readWord]
    | number numeral => exact readValue_of_numeral numeral hrest
    | string quoted =>
      have hquoted := accepts_readQuoted _ _ rest quoted trivial
      obtain ⟨behind⟩ := quoted
      rw [List.cons_append] at hquoted ⊢
      rw [readValue, if_neg (by decide), if_neg (by decide), if_neg (by decide), if_pos rfl,
        hquoted]
      rfl
    | emptyArray isBlank =>
      have hlist := readList_of_blanks (readPadded (readValue limit)) isBlank (.inl rfl) rest
      simp [readValue, hlist]
    | array separated =>
      have hlist := readList_append hpadded (fun _ _ rest h ↦ h.opens (begins_valueText depth) rest)
        (.inl rfl) separated rest
      simp [readValue, hlist]
    | emptyObject isBlank =>
      have hlist := readList_of_blanks (readMember (readValue limit)) isBlank (.inr rfl) rest
      simp [readValue, hlist]
    | object separated named_once =>
      have hlist := readList_append hmember (fun _ _ rest h ↦ h.opens rest)
        (.inr rfl) separated rest
      simp [readValue, hlist]

end Values

end JsonSyntax

/-- Reads a text whose value nests at most so many levels deep. -/
def JsonValue.read? (limit : Nat) (text : String) : Option JsonValue :=
  match JsonSyntax.readPadded (JsonSyntax.readValue limit) text.toList with
  | some (value, []) => some value
  | _ => none

namespace JsonValue

variable {text : String} {value other : JsonValue}

/-- A text is read as what it denotes, if it nests no deeper than the reader goes. -/
theorem read?_of_padded {depth limit : Nat} (hdepth : depth ≤ limit)
    (h : JsonSyntax.Padded (JsonSyntax.ValueText depth) text.toList value) :
    read? limit text = some value := by
  have hread := JsonSyntax.accepts_readPadded (JsonSyntax.accepts_readValue depth limit hdepth)
    (JsonSyntax.begins_valueText depth) _ _ [] h (by simp [JsonSyntax.AtMark])
  rw [List.append_nil] at hread
  rw [read?, hread]

/-- What a text denotes is read from it. -/
theorem read?_of_denotes (h : Denotes text value) :
    ∃ depth, ∀ limit, depth ≤ limit → read? limit text = some value := by
  obtain ⟨depth, htext⟩ := h
  exact ⟨depth, fun limit hdepth ↦ read?_of_padded hdepth htext⟩

/-- A text denotes one value at most. -/
theorem Denotes.unique (h : Denotes text value) (hother : Denotes text other) : value = other := by
  obtain ⟨depth, hread⟩ := read?_of_denotes h
  obtain ⟨otherDepth, hreadOther⟩ := read?_of_denotes hother
  have hboth := (hread _ (Nat.le_max_left depth otherDepth)).symm.trans
    (hreadOther _ (Nat.le_max_right depth otherDepth))
  exact Option.some.inj hboth

end JsonValue

end MonitorAudit
