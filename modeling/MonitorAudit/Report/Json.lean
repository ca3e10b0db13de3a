import MonitorAudit.Text.Hexadecimal

/-!
# JSON text

`Json` is a value of the format and `Json.render` its text: two blanks for each level of nesting,
one item to a line, and nothing between the brackets of an empty list. In a text only the quote, the
backslash and the control characters below the blank are escaped, by a letter where there is one
and by four hexadecimal digits otherwise.
-/

set_option autoImplicit false

namespace MonitorAudit

/-- A value of the format. Objects keep the order of their members. -/
inductive Json where
  | string (text : String)
  | number (value : Nat)
  | array (items : List Json)
  | object (members : List (String × Json))

namespace Json

/-- A character inside a quoted text. -/
def escape (c : Char) : List Char :=
  if c = '"' then ['\\', '"']
  else if c = '\\' then ['\\', '\\']
  else if c = '\x08' then ['\\', 'b']
  else if c = '\x0c' then ['\\', 'f']
  else if c = '\n' then ['\\', 'n']
  else if c = '\r' then ['\\', 'r']
  else if c = '\t' then ['\\', 't']
  else if c.toNat < 0x20 then
    ['\\', 'u', '0', '0', Hexadecimal.digit (c.toNat / 16), Hexadecimal.digit (c.toNat % 16)]
  else [c]

/-- A text in quotes. -/
def quote (text : String) : List Char := '"' :: text.toList.flatMap escape ++ ['"']

/-- The start of a line at a level of nesting. -/
def newline (level : Nat) : List Char := '\n' :: List.replicate (2 * level) ' '

mutual

/-- The text of a value at a level of nesting. -/
def render (level : Nat) : Json → List Char
  | string text => quote text
  | number value => Nat.toDigits 10 value
  | array [] => ['[', ']']
  | array (item :: items) =>
    '[' :: newline (level + 1) ++ render (level + 1) item ++ renderItems (level + 1) items ++
      newline level ++ [']']
  | object [] => ['{', '}']
  | object ((name, value) :: members) =>
    '{' :: newline (level + 1) ++ quote name ++ ':' :: ' ' :: render (level + 1) value ++
      renderMembers (level + 1) members ++ newline level ++ ['}']

/-- The text of the items behind the first. -/
def renderItems (level : Nat) : List Json → List Char
  | [] => []
  | item :: items => ',' :: newline level ++ render level item ++ renderItems level items

/-- The text of the members behind the first. -/
def renderMembers (level : Nat) : List (String × Json) → List Char
  | [] => []
  | (name, value) :: members =>
    ',' :: newline level ++ quote name ++ ':' :: ' ' :: render level value ++
      renderMembers level members

end

/-- The text of a value. -/
def text (value : Json) : String := String.ofList (render 0 value)

end Json

end MonitorAudit
