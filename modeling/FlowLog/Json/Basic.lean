import FlowLog.Number.Shortest
import FlowLog.Record

/-!
# JSON values

An object keeps its members in the order of a `Record`. Texts are held as units (see `Text.split`).
-/

namespace FlowLog

/-- A JSON value. -/
inductive Json where
  | null
  | bool (value : Bool)
  | number (value : Number)
  | text (value : String)
  | array (items : List Json)
  | object (members : List (String × Json))
  deriving Inhabited

namespace Json

/-- The member of an object with a given name. -/
def member? (name : String) : Json → Option Json
  | .object members => Record.get? members name
  | _ => none

/-- An integer as a JSON value. -/
def int (n : Int) : Json := .number (.integer n)

/-- A list of texts as a JSON value. -/
def texts (values : List String) : Json := .array (values.map .text)

/-- Texts with a comma between each two. -/
def commaSeparated : List (List Char) → List Char
  | [] => []
  | [last] => last
  | first :: rest => first ++ ',' :: commaSeparated rest

mutual

/-- The text that stands for a value inside a sentence. An object has no text of its own, and the
items of a list are written without brackets and with nothing for `null`. -/
def plainText : Json → List Char
  | .null => "null".toList
  | .bool value => if value then "true".toList else "false".toList
  | .number value => value.text
  | .text value => value.toList
  | .array items => commaSeparated (plainItems items)
  | .object _ => "[object Object]".toList

/-- The texts of the items of a list. -/
def plainItems : List Json → List (List Char)
  | [] => []
  | .null :: rest => [] :: plainItems rest
  | item :: rest => plainText item :: plainItems rest

end

end Json

end FlowLog
