import MonitorAudit.Proofs.Report.JsonSyntax
import MonitorAudit.Report.Json
import Mathlib.Data.List.Forall2

/-!
# The writer writes standard JSON

Each kind of text that `Json.render` makes is one of the standard syntax.
`Json.Writes depth json value` says that the text of `json` is `value` at every level of nesting,
and there is a lemma for each constructor: a text in quotes (`Json.writes_string`), a number, an
array of items and an object of members that are written.
-/

set_option autoImplicit false

namespace MonitorAudit.Json

open JsonSyntax

/-! ### Texts in quotes -/

theorem hexDigit?_digit {value : Nat} (h : value < 16) :
    hexDigit? (Hexadecimal.digit value) = some value := by
  have hall : ∀ value < 16, hexDigit? (Hexadecimal.digit value) = some value := by decide
  exact hall value h

/-- A character below the blank is its number in four digits. -/
theorem hexUnit_control {c : Char} (h : c.toNat < 0x20) :
    HexUnit ['0', '0', Hexadecimal.digit (c.toNat / 16), Hexadecimal.digit (c.toNat % 16)]
      c.toNat := by
  have hhigh := hexDigit?_digit (show c.toNat / 16 < 16 by omega)
  have hlow := hexDigit?_digit (Nat.mod_lt c.toNat (by decide : 0 < 16))
  have hunit := HexUnit.intro (show hexDigit? '0' = some 0 by decide)
    (show hexDigit? '0' = some 0 by decide) hhigh hlow
  have hnumber : ((0 * 16 + 0) * 16 + c.toNat / 16) * 16 + c.toNat % 16 = c.toNat := by omega
  rwa [hnumber] at hunit

/-- What is written for a character denotes it. -/
theorem characters_escape (c : Char) {text chars : List Char} (h : Characters text chars) :
    Characters (escape c ++ text) (c :: chars) := by
  have hletter {letter : Char} (short : (letter, c) ∈ shortEscapes) :
      Characters (['\\', letter] ++ text) (c :: chars) := .escape (.letter short) h
  unfold escape
  split_ifs with hquote hbackslash hb hf hn hr ht hcontrol
  · exact hletter (by simp [shortEscapes, hquote])
  · exact hletter (by simp [shortEscapes, hbackslash])
  · exact hletter (by simp [shortEscapes, hb])
  · exact hletter (by simp [shortEscapes, hf])
  · exact hletter (by simp [shortEscapes, hn])
  · exact hletter (by simp [shortEscapes, hr])
  · exact hletter (by simp [shortEscapes, ht])
  · exact .escape (.unit (hexUnit_control hcontrol)) h
  · exact .plain hquote hbackslash (Nat.le_of_not_lt hcontrol) h

theorem quoted_quote (text : String) : Quoted (quote text) text := by
  have hchars (chars : List Char) : Characters (chars.flatMap escape) chars := by
    induction chars with
    | nil => exact .nil
    | cons c chars ih => exact characters_escape c ih
  have hquoted := Quoted.intro (hchars text.toList)
  rwa [String.ofList_toList] at hquoted

/-! ### Numbers -/

/-- The digits of a number do not begin with a zero, unless it is zero. -/
theorem head_toDigits_ne {value : Nat} (h : value ≠ 0) :
    (Nat.toDigits 10 value).head? ≠ some '0' := by
  induction value using Nat.strong_induction_on with
  | _ value ih =>
    by_cases hten : value < 10
    · have hall : ∀ value < 10, value ≠ 0 → (Nat.toDigits 10 value).head? ≠ some '0' := by decide
      exact hall value hten h
    · have hten := Nat.le_of_not_lt hten
      rw [Nat.toDigits_of_base_le (by decide) hten,
        List.head?_append_of_ne_nil _ Nat.toDigits_ne_nil]
      exact ih (value / 10) (by omega) (by omega)

theorem whole_toDigits (value : Nat) : Whole (Nat.toDigits 10 value) := by
  by_cases hzero : value = 0
  · rw [hzero]
    exact .zero
  · have hdigits : Digits (Nat.toDigits 10 value) :=
      ⟨Nat.toDigits_ne_nil, fun c hc ↦ Nat.isDigit_of_mem_toDigits (by decide) (by decide) hc⟩
    have hhead := head_toDigits_ne hzero
    cases htext : Nat.toDigits 10 value with
    | nil => exact absurd htext Nat.toDigits_ne_nil
    | cons c text =>
      rw [htext] at hdigits hhead
      exact .positive hdigits fun hc ↦ hhead (congrArg some hc)

theorem numeral_toDigits (value : Nat) : Numeral (Nat.toDigits 10 value) value := by
  have hvalue : scaled (Nat.toDigits 10 value) [] 0 = value := by
    simp [scaled, decimal, Nat.ofDigitChars_ten_toDigits]
  have hunsigned := Unsigned.intro (whole_toDigits value) .absent .absent
  rw [hvalue, List.append_nil, List.append_nil] at hunsigned
  exact .unsigned hunsigned

/-! ### Lists -/

theorem blanks_nil : Blanks [] := List.forall_mem_nil _

theorem blanks_newline (level : Nat) : Blanks (newline level) := by
  intro c hc
  rcases List.mem_cons.mp hc with rfl | hc
  · decide
  · rw [List.eq_of_mem_replicate hc]
    decide

theorem renderItems_eq (level : Nat) (items : List Json) :
    renderItems level items =
      items.flatMap fun item ↦ ',' :: (newline level ++ render level item) := by
  induction items with
  | nil => rfl
  | cons item items ih => simp [renderItems, ih]

/-- The text of a member. -/
def renderMember (level : Nat) (member : String × Json) : List Char :=
  quote member.1 ++ ':' :: ' ' :: render level member.2

theorem renderMembers_eq (level : Nat) (members : List (String × Json)) :
    renderMembers level members =
      members.flatMap fun member ↦ ',' :: (newline level ++ renderMember level member) := by
  induction members with
  | nil => rfl
  | cons member members ih =>
    obtain ⟨name, value⟩ := member
    simp [renderMembers, renderMember, ih]

/-- Parts that are written one to a line are parts with commas between them. -/
theorem separated_lines {α β : Type} {part : List Char → β → Prop} {write : α → List Char}
    {level : Nat} {after : List Char} (blanks : Blanks after) {item : α} {items : List α}
    {value : β} {values : List β}
    (h : List.Forall₂ (fun item value ↦ ∀ after, Blanks after →
      part (newline level ++ (write item ++ after)) value) (item :: items) (value :: values)) :
    Separated part (newline level ++ (write item ++
      (items.flatMap (fun item ↦ ',' :: (newline level ++ write item)) ++ after)))
      (value :: values) := by
  induction items generalizing item value values with
  | nil =>
    cases h with
    | cons hitem hnil =>
      cases hnil
      exact .one (hitem after blanks)
  | cons next items ih =>
    cases h with
    | cons hitem hitems =>
      cases hitems with
      | cons hnext hrest =>
        have hmore := Separated.more (hitem [] blanks_nil) (ih (.cons hnext hrest))
        simpa using hmore

/-! ### Values -/

/-- The text of the value is that of another of the standard, at whatever level it stands. -/
def Writes (depth : Nat) (json : Json) (value : JsonValue) : Prop :=
  ∀ level, ValueText depth (render level json) value

variable {depth : Nat}

theorem writes_string (text : String) : Writes (depth + 1) (.string text) (.string text) := by
  intro level
  rw [render]
  exact ValueShape.string (quoted_quote text)

theorem writes_number (value : Nat) : Writes (depth + 1) (.number value) (.number value) := by
  intro level
  rw [render]
  exact ValueShape.number (numeral_toDigits value)

theorem writes_array {items : List Json} {values : List JsonValue}
    (h : List.Forall₂ (Writes depth) items values) :
    Writes (depth + 1) (.array items) (.array values) := by
  intro level
  cases h with
  | nil =>
    rw [render]
    exact ValueShape.emptyArray blanks_nil
  | @cons item value items values hitem hitems =>
    have hparts : List.Forall₂ (fun item value ↦ ∀ after, Blanks after →
        Padded (ValueText depth) (newline (level + 1) ++ (render (level + 1) item ++ after)) value)
        (item :: items) (value :: values) :=
      List.Forall₂.imp (fun item value hwrites after hafter ↦
        .intro (blanks_newline _) (hwrites _) hafter) (.cons hitem hitems)
    have harray := ValueShape.array (separated_lines (blanks_newline level) hparts)
    show ValueShape (ValueText depth) _ _
    rw [render, renderItems_eq]
    simpa using harray

theorem writes_object {members : List (String × Json)} {values : List (String × JsonValue)}
    (h : List.Forall₂ (fun member value ↦ member.1 = value.1 ∧ Writes depth member.2 value.2)
      members values) (named_once : (values.map Prod.fst).Nodup) :
    Writes (depth + 1) (.object members) (.object values) := by
  intro level
  cases h with
  | nil =>
    rw [render]
    exact ValueShape.emptyObject blanks_nil
  | @cons member value members values hmember hmembers =>
    have hparts : List.Forall₂ (fun member value ↦ ∀ after, Blanks after →
        MemberShape (ValueText depth)
          (newline (level + 1) ++ (renderMember (level + 1) member ++ after)) value)
        (member :: members) (value :: values) := by
      refine List.Forall₂.imp ?_ (.cons hmember hmembers)
      rintro ⟨name, item⟩ ⟨-, value⟩ ⟨rfl, hwrites⟩ after hafter
      have hname : Padded Quoted (newline (level + 1) ++ (quote name ++ [])) name :=
        .intro (blanks_newline _) (quoted_quote name) blanks_nil
      have hvalue : Padded (ValueText depth) ([' '] ++ (render (level + 1) item ++ after)) value :=
        .intro (by simp [Blanks, JsonSyntax.isBlank]) (hwrites _) hafter
      simpa [renderMember] using MemberShape.intro hname hvalue
    have hobject := ValueShape.object (separated_lines (blanks_newline level) hparts) named_once
    obtain ⟨name, item⟩ := member
    show ValueShape (ValueText depth) _ _
    rw [render, renderMembers_eq]
    simpa [renderMember] using hobject

/-- A text of a value and a line break denotes what is written. -/
theorem Writes.denotes {json : Json} {value : JsonValue} (h : Writes depth json value) :
    Padded (ValueText depth) (json.text ++ "\n").toList value := by
  have hpadded : Padded (ValueText depth) ([] ++ (render 0 json ++ ['\n'])) value :=
    .intro blanks_nil (h 0) (by simp [Blanks, JsonSyntax.isBlank])
  simpa [text] using hpadded

end MonitorAudit.Json
