import FlowLog.Json.Basic
import FlowLog.Text.Units

/-!
# Writing JSON

A value is written on one line (`compact`) or spread over lines with an indentation of two spaces
(`indented`). In a text the quote, the backslash and the control characters are escaped, and so is a
half that stands without its partner; everything else is written as it is. An infinity is written as
`null`.
-/

namespace FlowLog.Json

/-- The hexadecimal digit of a number below sixteen, in lower case. -/
def hexDigit (n : Nat) : Char := Nat.digitChar n

/-- The escape of a unit by its value. -/
def unicodeEscape (unit : Nat) : List Char :=
  ['\\', 'u', hexDigit (unit / 0x1000 % 16), hexDigit (unit / 0x100 % 16),
    hexDigit (unit / 0x10 % 16), hexDigit (unit % 16)]

/-- Writes one unit inside a quoted text. -/
def escapeUnit (c : Char) : List Char :=
  if c = '"' then ['\\', '"']
  else if c = '\\' then ['\\', '\\']
  else if c = '\x08' then ['\\', 'b']
  else if c = '\x0c' then ['\\', 'f']
  else if c = '\n' then ['\\', 'n']
  else if c = '\r' then ['\\', 'r']
  else if c = '\t' then ['\\', 't']
  else if c.toNat < 0x20 || Text.isHighHalf c || Text.isLowHalf c then
    unicodeEscape (Text.unitValue c)
  else [c]

/-- Writes the units inside a quoted text; matching halves are written as they are. -/
def escapeUnits : List Char → List Char
  | first :: second :: rest =>
      if Text.isHighHalf first && Text.isLowHalf second then first :: second :: escapeUnits rest
      else escapeUnit first ++ escapeUnits (second :: rest)
  | [unit] => escapeUnit unit
  | [] => []

/-- A text between quotes. -/
def quoted (value : String) : List Char := '"' :: escapeUnits value.toList ++ ['"']

/-- A number; an infinity has no numeral. -/
def numeral (value : Number) : List Char :=
  if value.isFinite then value.text else "null".toList

mutual

/-- Writes a value on one line. -/
def compact : Json → List Char
  | .null => "null".toList
  | .bool value => if value then "true".toList else "false".toList
  | .number value => numeral value
  | .text value => quoted value
  | .array items => '[' :: commaSeparated (compactItems items) ++ [']']
  | .object members => '\x7b' :: commaSeparated (compactMembers members) ++ ['\x7d']

/-- Writes the items of a list on one line each. -/
def compactItems : List Json → List (List Char)
  | [] => []
  | item :: rest => compact item :: compactItems rest

/-- Writes the members of an object on one line each. -/
def compactMembers : List (String × Json) → List (List Char)
  | [] => []
  | (name, value) :: rest => (quoted name ++ ':' :: compact value) :: compactMembers rest

end

/-- A line end followed by the indentation of a depth. -/
def newLine (depth : Nat) : List Char := '\n' :: List.replicate (2 * depth) ' '

/-- Puts parts on lines of their own between two brackets; without parts the brackets stay
together. -/
def block (depth : Nat) (left right : Char) (parts : List (List Char)) : List Char :=
  if parts.isEmpty then [left, right]
  else
    left :: commaSeparated (parts.map (newLine (depth + 1) ++ ·)) ++ newLine depth ++ [right]

mutual

/-- Writes a value over lines, for a place at a given depth. -/
def indented (depth : Nat) : Json → List Char
  | .array items => block depth '[' ']' (indentedItems (depth + 1) items)
  | .object members => block depth '\x7b' '\x7d' (indentedMembers (depth + 1) members)
  | .null => compact .null
  | .bool value => compact (.bool value)
  | .number value => compact (.number value)
  | .text value => compact (.text value)

/-- Writes the items of a list over lines. -/
def indentedItems (depth : Nat) : List Json → List (List Char)
  | [] => []
  | item :: rest => indented depth item :: indentedItems depth rest

/-- Writes the members of an object over lines. -/
def indentedMembers (depth : Nat) : List (String × Json) → List (List Char)
  | [] => []
  | (name, value) :: rest =>
      (quoted name ++ ':' :: ' ' :: indented depth value) :: indentedMembers depth rest

end

/-- The one-line text of a value. -/
def line (value : Json) : String := String.ofList value.compact

/-- The text of a value over lines. -/
def page (value : Json) : String := String.ofList (value.indented 0)

end FlowLog.Json
