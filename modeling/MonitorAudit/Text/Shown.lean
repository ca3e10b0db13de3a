import MonitorAudit.Text.Hexadecimal
import MonitorAudit.Text.Shapeless

/-!
# Texts as they are shown

`shown` puts a text between quotes so that every character of it can be seen: the quote and the
backslash stand behind a backslash, four controls have letters or a digit of their own, and a
character without a shape is given by its number.
-/

set_option autoImplicit false

namespace MonitorAudit

/-- A character as it is shown between quotes. -/
def shownChar (c : Char) : List Char :=
  if c = '"' ∨ c = '\\' then ['\\', c]
  else if c = '\t' then ['\\', 't']
  else if c = '\r' then ['\\', 'r']
  else if c = '\n' then ['\\', 'n']
  else if c.toNat = 0 then ['\\', '0']
  else if isShapeless c then
    ['\\', 'u', '{'] ++ (Hexadecimal.padded 1 c.toNat).toList ++ ['}']
  else [c]

/-- A text between quotes with all its characters in sight. -/
def shown (text : String) : String :=
  String.ofList ('"' :: text.toList.flatMap shownChar ++ ['"'])

end MonitorAudit
