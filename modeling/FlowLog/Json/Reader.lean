import FlowLog.Json.Basic
import FlowLog.Text.Units

/-!
# Reading JSON

The reader follows the grammar of JSON. A name that an object repeats keeps its first place and its
last value. Texts are split into units, and an escape by value names one unit.
-/

namespace FlowLog.Json

/-- Whether a character may stand between tokens. -/
def isGap (c : Char) : Bool := c == ' ' || c == '\t' || c == '\n' || c == '\r'

/-- The input after gaps. -/
def skipGaps (input : List Char) : List Char := input.dropWhile isGap

/-- The value of a hexadecimal digit. -/
def hexValue? (c : Char) : Option Nat :=
  if c.isDigit then some (c.toNat - '0'.toNat)
  else if 'a' ≤ c ∧ c ≤ 'f' then some (c.toNat - 'a'.toNat + 10)
  else if 'A' ≤ c ∧ c ≤ 'F' then some (c.toNat - 'A'.toNat + 10)
  else none

/-- The character that holds a unit. -/
def unitChar (unit : Nat) : Char :=
  if 0xD800 ≤ unit ∧ unit < 0xE000 then Text.half unit else Char.ofNat unit

/-- The unit named by four hexadecimal digits. -/
def unit? (a b c d : Char) : Option Char := do
  let high := 0x10 * (← hexValue? a) + (← hexValue? b)
  let low := 0x10 * (← hexValue? c) + (← hexValue? d)
  return unitChar (0x100 * high + low)

/-- The character named by a one-letter escape. -/
def escape? : Char → Option Char
  | '"' => some '"'
  | '\\' => some '\\'
  | '/' => some '/'
  | 'b' => some '\x08'
  | 'f' => some '\x0c'
  | 'n' => some '\n'
  | 'r' => some '\r'
  | 't' => some '\t'
  | _ => none

/-- Reads the inside of a quoted text up to its closing quote: the units and the rest of the
input. -/
def readUnits? : List Char → Option (List Char × List Char)
  | [] => none
  | '"' :: rest => some ([], rest)
  | '\\' :: 'u' :: a :: b :: c :: d :: rest => do
      let unit ← unit? a b c d
      let (units, after) ← readUnits? rest
      return (unit :: units, after)
  | '\\' :: letter :: rest => do
      let unit ← escape? letter
      let (units, after) ← readUnits? rest
      return (unit :: units, after)
  | c :: rest => do
      if c.toNat < 0x20 ∨ c = '\\' then none
      let (units, after) ← readUnits? rest
      return (Text.unitsOf c ++ units, after)

/-- Whether a character can belong to a numeral. -/
def isNumeralChar (c : Char) : Bool :=
  c.isDigit || c == '-' || c == '+' || c == '.' || c == 'e' || c == 'E'

/-- Reads a number. -/
def readNumber? (input : List Char) : Option (Json × List Char) :=
  let (numeral, after) := input.span isNumeralChar
  (Numeral.decimal? numeral).map fun decimal => (.number (.ofDecimal decimal), after)

/-- Reads a fixed word. -/
def readWord? (word : String) (value : Json) (input : List Char) : Option (Json × List Char) :=
  if word.toList.isPrefixOf input then some (value, input.drop word.length) else none

mutual

/-- Reads one value, with a bound on the number of nested steps. -/
def readValue? (fuel : Nat) (input : List Char) : Option (Json × List Char) :=
  match fuel with
  | 0 => none
  | fuel + 1 =>
      match skipGaps input with
      | [] => none
      | '"' :: rest => do
          let (units, after) ← readUnits? rest
          return (.text (String.ofList units), after)
      | '[' :: rest =>
          match skipGaps rest with
          | ']' :: after => some (.array [], after)
          | _ => do
              let (items, after) ← readItems? fuel rest
              return (.array items, after)
      | '\x7b' :: rest =>
          match skipGaps rest with
          | '\x7d' :: after => some (.object [], after)
          | _ => do
              let (members, after) ← readMembers? fuel rest
              return (.object (Record.ofList members), after)
      | c :: rest =>
          if c = 't' then readWord? "true" (.bool true) (c :: rest)
          else if c = 'f' then readWord? "false" (.bool false) (c :: rest)
          else if c = 'n' then readWord? "null" .null (c :: rest)
          else readNumber? (c :: rest)

/-- Reads the items of a list and its closing bracket. -/
def readItems? (fuel : Nat) (input : List Char) : Option (List Json × List Char) :=
  match fuel with
  | 0 => none
  | fuel + 1 => do
      let (item, afterItem) ← readValue? fuel input
      match skipGaps afterItem with
      | ']' :: after => return ([item], after)
      | ',' :: rest =>
          let (items, after) ← readItems? fuel rest
          return (item :: items, after)
      | _ => none

/-- Reads the members of an object and its closing bracket. -/
def readMembers? (fuel : Nat) (input : List Char) : Option (List (String × Json) × List Char) :=
  match fuel with
  | 0 => none
  | fuel + 1 =>
      match skipGaps input with
      | '"' :: afterQuote => do
          let (name, afterName) ← readUnits? afterQuote
          match skipGaps afterName with
          | ':' :: afterColon =>
              let (value, afterValue) ← readValue? fuel afterColon
              let member := (String.ofList name, value)
              match skipGaps afterValue with
              | '\x7d' :: after => return ([member], after)
              | ',' :: rest =>
                  let (members, after) ← readMembers? fuel rest
                  return (member :: members, after)
              | _ => none
          | _ => none
      | _ => none

end

/-- Reads a text that is one JSON value. Every step of the reader consumes a character, so the
length of the text bounds the steps. -/
def ofString? (s : String) : Option Json :=
  let input := s.toList
  match readValue? (input.length + 1) input with
  | some (value, rest) => if (skipGaps rest).isEmpty then some value else none
  | none => none

end FlowLog.Json
