import FlowLog.Json.Basic

/-!
# Payloads

What is attached to a log entry: JSON values and, at any depth, big integers, missing values and
errors. A missing value leaves out the member it stands for and is `null` in a list. An error is
written in one of two forms: as a report of its name, message and stack, or as the members it has,
which are its name and its cause. A big integer has no JSON form, so a payload in which one would be
written cannot be written.
-/

namespace FlowLog.Log

/-- What is attached to a log entry. -/
inductive Payload where
  | null
  | bool (value : Bool)
  | number (value : Number)
  | text (value : String)
  | array (items : List Payload)
  | object (members : List (String × Payload))
  | big (value : Int)
  | missing
  | error (name message stack : String) (cause : Option Payload)
  deriving Inhabited

namespace Payload

/-- A list of texts. -/
def texts (values : List String) : Payload := .array (values.map .text)

mutual

/-- A JSON value as a payload. -/
def ofJson : Json → Payload
  | .null => .null
  | .bool value => .bool value
  | .number value => .number value
  | .text value => .text value
  | .array items => .array (ofJsonItems items)
  | .object members => .object (ofJsonMembers members)

/-- JSON values as payloads. -/
def ofJsonItems : List Json → List Payload
  | [] => []
  | item :: rest => ofJson item :: ofJsonItems rest

/-- JSON members as payloads. -/
def ofJsonMembers : List (String × Json) → List (String × Payload)
  | [] => []
  | (name, value) :: rest => (name, ofJson value) :: ofJsonMembers rest

end

/-- Whether a payload counts as there: zeros, empty texts, `null`, `false` and missing values do
not. -/
def isPresent : Payload → Bool
  | .null => false
  | .missing => false
  | .bool value => value
  | .number value => value != 0
  | .text value => value != ""
  | .big value => value != 0
  | _ => true

/-- The reason for which a payload cannot be written. -/
inductive Unwritable where
  | bigInteger
  deriving DecidableEq, Repr

/-- The sentence that reports the reason. -/
def Unwritable.message : Unwritable → String
  | .bigInteger => "Do not know how to serialize a BigInt"

/-- What is written of an error. -/
inductive ErrorForm where
  /-- Its name, message and stack. -/
  | report
  /-- Its name and, if it has one, its cause. -/
  | members
  deriving DecidableEq, Repr

/-- The report of an error. -/
def errorReport (name message stack : String) : Json :=
  .object [("name", .text name), ("message", .text message), ("stack", .text stack)]

mutual

/-- The JSON form of a payload; a missing value has none. -/
def toJson? (form : ErrorForm) : Payload → Except Unwritable (Option Json)
  | .null => .ok (some .null)
  | .bool value => .ok (some (.bool value))
  | .number value => .ok (some (.number value))
  | .text value => .ok (some (.text value))
  | .array items => do
      let items ← itemsToJson? form items
      return some (.array items)
  | .object members => do
      let members ← membersToJson? form members
      return some (.object members)
  | .big _ => .error .bigInteger
  | .missing => .ok none
  | .error name message stack cause =>
      match form with
      | .report => .ok (some (errorReport name message stack))
      | .members => do
          let cause ← causeToJson? form cause
          return some (.object (("name", .text name) :: cause))

/-- The member that holds the cause of an error, if there is one. -/
def causeToJson? (form : ErrorForm) : Option Payload → Except Unwritable (List (String × Json))
  | none => .ok []
  | some cause => do
      let json ← toJson? form cause
      return json.toList.map fun json => ("cause", json)

/-- The JSON forms of the items of a list, where a missing item is `null`. -/
def itemsToJson? (form : ErrorForm) : List Payload → Except Unwritable (List Json)
  | [] => .ok []
  | item :: rest => do
      let json ← toJson? form item
      let jsons ← itemsToJson? form rest
      return json.getD .null :: jsons

/-- The JSON forms of the members of an object, without the missing ones. -/
def membersToJson? (form : ErrorForm) :
    List (String × Payload) → Except Unwritable (List (String × Json))
  | [] => .ok []
  | (name, value) :: rest => do
      let json ← toJson? form value
      let jsons ← membersToJson? form rest
      match json with
      | some json => return (name, json) :: jsons
      | none => return jsons

end

/-- The name and the message of an error in one text. -/
def errorText (name message : String) : List Char :=
  if message = "" then name.toList
  else if name = "" then message.toList
  else name.toList ++ ':' :: ' ' :: message.toList

mutual

/-- The text that stands for a payload inside a sentence. -/
def plainText : Payload → List Char
  | .null => "null".toList
  | .bool value => if value then "true".toList else "false".toList
  | .number value => value.text
  | .text value => value.toList
  | .array items => Json.commaSeparated (plainItems items)
  | .object _ => "[object Object]".toList
  | .big value => Numeral.ofInt value
  | .missing => "undefined".toList
  | .error name message _ _ => errorText name message

/-- The texts of the items of a list. -/
def plainItems : List Payload → List (List Char)
  | [] => []
  | .null :: rest => [] :: plainItems rest
  | .missing :: rest => [] :: plainItems rest
  | item :: rest => plainText item :: plainItems rest

end

/-- The names and values that a payload contributes when it is merged into another one. -/
def members : Payload → List (String × Payload)
  | .object members => members
  | .array items => (items.zipIdx 0).map fun (item, position) =>
      (String.ofList (Numeral.digits position), item)
  | .text value => (value.toList.zipIdx 0).map fun (unit, position) =>
      (String.ofList (Numeral.digits position), .text (String.ofList [unit]))
  | .error name _ _ cause => ("name", .text name) :: cause.toList.map fun cause => ("cause", cause)
  | _ => []

/-- An error as a member of an entry: its parts, and its cause if there is one. -/
def describe : Payload → Payload
  | .error name message stack cause =>
      let parts := [("name", .text name), ("message", .text message), ("stack", .text stack)]
      match cause with
      | some cause => .object (if cause.isPresent then parts ++ [("cause", cause)] else parts)
      | none => .object parts
  | payload => payload

end Payload

end FlowLog.Log
